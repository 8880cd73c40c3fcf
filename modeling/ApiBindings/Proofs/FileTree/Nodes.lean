import ApiBindings.FileTree
import ApiBindings.Proofs.Nominal.Growth
/-!
# What is where in a tree

A tree says of every place whether there is a file, with its text, or a
directory.  Putting a file or a new directory at a place that is no directory
changes what is there and nothing else; if the directory around the place does
not exist, the tree stays as it is.
-/

namespace ApiBindings
namespace FileTree

/-- What is at a place, less what a directory holds. -/
inductive Node where
  | file (text : String)
  | directory
deriving DecidableEq, Repr

namespace Node

def text? : Node → Option String
  | file text => some text
  | directory => none

end Node

def node : FileTree → Node
  | .file text => .file text
  | .directory _ => .directory

def node? (root : FileTree) (place : Place) : Option Node :=
  (root.get? place).map node

/-- The text of the file at a place. -/
def text? (root : FileTree) (place : Place) : Option String :=
  (root.node? place).bind Node.text?

/-- A place has room if it is the root or in a directory. -/
def HasRoom (root : FileTree) (place : Place) : Prop :=
  place ≠ [] → root.node? place.dropLast = some .directory

variable {root tree : FileTree} {place other : Place} {name : Text}
  {change next : Option FileTree → Option FileTree} {entries : List (Text × FileTree)}

/-! ## The entries of a directory -/

theorem find?_alterEntry_self (hchange : change (Text.find? name entries) = some tree) :
    Text.find? name (alterEntry name change entries) = some tree := by
  induction entries with
  | nil =>
      rw [Text.find?_nil] at hchange
      simp [alterEntry, hchange, Text.find?_cons]
  | cons entry rest ih =>
      obtain ⟨n, found⟩ := entry
      rw [Text.find?_cons] at hchange
      by_cases hn : n = name
      · subst hn
        rw [if_pos rfl] at hchange
        simp [alterEntry, hchange, Text.find?_cons]
      · rw [if_neg (Ne.symm hn)] at hchange
        simp [alterEntry, hn, Text.find?_cons, Ne.symm hn, ih hchange]

theorem find?_alterEntry_other {key : Text} (hkey : key ≠ name) :
    Text.find? key (alterEntry name change entries) = Text.find? key entries := by
  induction entries with
  | nil => cases hnew : change none <;> simp [alterEntry, hnew, Text.find?_cons, hkey]
  | cons entry rest ih =>
      obtain ⟨n, found⟩ := entry
      by_cases hn : n = name
      · subst hn
        cases hnew : change (some found) <;> simp [alterEntry, hnew, Text.find?_cons, hkey]
      · simp [alterEntry, hn, Text.find?_cons, ih]

theorem alterEntry_congr
    (hsame : change (Text.find? name entries) = next (Text.find? name entries)) :
    alterEntry name change entries = alterEntry name next entries := by
  induction entries with
  | nil =>
      rw [Text.find?_nil] at hsame
      simp [alterEntry, hsame]
  | cons entry rest ih =>
      obtain ⟨n, found⟩ := entry
      rw [Text.find?_cons] at hsame
      by_cases hn : n = name
      · subst hn
        rw [if_pos rfl] at hsame
        simp [alterEntry, hsame]
      · rw [if_neg (Ne.symm hn)] at hsame
        simp [alterEntry, hn, ih hsame]

theorem alterEntry_id : alterEntry name id entries = entries := by
  induction entries with
  | nil => rfl
  | cons entry rest ih =>
      obtain ⟨n, found⟩ := entry
      by_cases hn : n = name
      · subst hn
        simp [alterEntry]
      · simp [alterEntry, hn, ih]

theorem alterEntry_eq_self
    (hsame : change (Text.find? name entries) = Text.find? name entries) :
    alterEntry name change entries = entries := by
  have hid : alterEntry name change entries = alterEntry name id entries := alterEntry_congr hsame
  rw [hid, alterEntry_id]

theorem alterEntry_alterEntry
    (hstays : change (Text.find? name entries) = none → Text.find? name entries = none) :
    alterEntry name next (alterEntry name change entries) =
      alterEntry name (next ∘ change) entries := by
  induction entries with
  | nil => cases hnew : change none <;> simp [alterEntry, hnew]
  | cons entry rest ih =>
      obtain ⟨n, found⟩ := entry
      rw [Text.find?_cons] at hstays
      by_cases hn : n = name
      · subst hn
        rw [if_pos rfl] at hstays
        -- If the entry went, the second change could meet a later one of the name.
        cases hnew : change (some found) with
        | none => simp [hnew] at hstays
        | some changed => simp [alterEntry, hnew]
      · rw [if_neg (Ne.symm hn)] at hstays
        simp [alterEntry, hn, ih hstays]

/-! ## Places -/

theorem get?_append (root : FileTree) (place more : Place) :
    root.get? (place ++ more) = (root.get? place).bind (get? more) := by
  induction place generalizing root with
  | nil => simp [get?]
  | cons name rest ih =>
      cases root with
      | file text => simp [get?]
      | directory entries =>
          cases hfound : Text.find? name entries with
          | none => simp [get?, hfound]
          | some tree => simp [get?, hfound, ih]

theorem node?_eq_directory_iff :
    root.node? place = some .directory ↔ ∃ entries, root.get? place = some (.directory entries) := by
  unfold node?
  cases hfound : root.get? place with
  | none => simp
  | some tree => cases tree <;> simp [node]

/-- Whatever there is below a place, the place itself is a directory. -/
theorem node?_eq_directory_of_append (more : Place) (hmore : more ≠ [])
    (hfound : root.node? (place ++ more) ≠ none) : root.node? place = some .directory := by
  unfold node? at *
  rw [get?_append] at hfound
  cases hplace : root.get? place with
  | none => simp [hplace] at hfound
  | some tree =>
      cases tree with
      | directory entries => simp [node]
      | file text =>
          obtain ⟨name, rest, rfl⟩ := List.exists_cons_of_ne_nil hmore
          simp [hplace, get?] at hfound

theorem hasRoom_of_node? (hfound : root.node? place ≠ none) : root.HasRoom place := by
  intro hplace
  refine node?_eq_directory_of_append [place.getLast hplace] (by simp) ?_
  rwa [List.dropLast_concat_getLast hplace]

theorem hasRoom_cons {rest : Place} (hrest : rest ≠ []) :
    HasRoom (.directory entries) (name :: rest) ↔
      ∃ tree, Text.find? name entries = some tree ∧ tree.HasRoom rest := by
  unfold HasRoom node?
  rw [List.dropLast_cons_of_ne_nil hrest]
  cases hfound : Text.find? name entries <;> simp [get?, hfound, hrest]

/-! ## Changes at a place -/

theorem alter_cons {rest : Place} (hrest : rest ≠ []) :
    alter change (name :: rest) (.directory entries) =
      .directory (alterEntry name (Option.map (alter change rest)) entries) := by
  obtain ⟨step, rest, rfl⟩ := List.exists_cons_of_ne_nil hrest
  rfl

theorem get?_alter_self (hroom : root.HasRoom place)
    (hchange : change (root.get? place) = some tree) :
    (alter change place root).get? place = some tree := by
  induction place generalizing root with
  | nil =>
      rw [get?] at hchange
      simp [alter, get?, hchange]
  | cons name rest ih =>
      cases root with
      | file text => simp [HasRoom, node?] at hroom; cases rest <;> simp [get?, node] at hroom
      | directory entries =>
          by_cases hrest : rest = []
          · subst hrest
            have hfound : change (Text.find? name entries) = some tree := by
              simpa [get?] using hchange
            simp [alter, get?, find?_alterEntry_self hfound]
          · obtain ⟨found, hfound, hroom⟩ := (hasRoom_cons hrest).mp hroom
            rw [get?, hfound, Option.bind_some] at hchange
            have hself : Text.find? name (alterEntry name (Option.map (alter change rest)) entries) =
                some (alter change rest found) := find?_alterEntry_self (by simp [hfound])
            rw [alter_cons hrest, get?, hself]
            exact ih hroom hchange

theorem node?_alter_other (hother : ¬ place <+: other) :
    (alter change place root).node? other = root.node? other := by
  induction place generalizing root other with
  | nil => exact absurd List.nil_prefix hother
  | cons name rest ih =>
      cases root with
      | file text => cases rest <;> rfl
      | directory entries =>
          -- Above the place there is a directory before and after.
          cases other with
          | nil => cases rest <;> simp [alter, node?, get?, node]
          | cons n more =>
              unfold node? at ih ⊢
              by_cases hrest : rest = []
              · subst hrest
                have hn : n ≠ name := by
                  rintro rfl
                  exact hother ⟨more, rfl⟩
                simp [alter, get?, find?_alterEntry_other hn]
              · rw [alter_cons hrest, get?, get?]
                by_cases hn : n = name
                · subst hn
                  have hmore : ¬ rest <+: more := by
                    simpa [List.cons_prefix_cons] using hother
                  cases hfound : Text.find? n entries with
                  | none => rw [alterEntry_eq_self (by simp [hfound]), hfound]
                  | some found =>
                      have hself :
                          Text.find? n (alterEntry n (Option.map (alter change rest)) entries) =
                            some (alter change rest found) :=
                        find?_alterEntry_self (by simp [hfound])
                      rw [hself]
                      exact ih hmore
                · rw [find?_alterEntry_other hn]

theorem alter_eq_self (hsame : change (root.get? place) = root.get? place) :
    alter change place root = root := by
  induction place generalizing root with
  | nil =>
      rw [get?] at hsame
      simp [alter, hsame]
  | cons name rest ih =>
      cases root with
      | file text => cases rest <;> rfl
      | directory entries =>
          by_cases hrest : rest = []
          · subst hrest
            have hfound : change (Text.find? name entries) = Text.find? name entries := by
              simpa [get?] using hsame
            rw [alter, alterEntry_eq_self hfound]
          · rw [alter_cons hrest, alterEntry_eq_self ?_]
            cases hfound : Text.find? name entries with
            | none => rfl
            | some found =>
                have hfound : change (found.get? rest) = found.get? rest := by
                  simpa [get?, hfound] using hsame
                simp [ih hfound]

theorem alter_of_not_hasRoom (hroom : ¬ root.HasRoom place) : alter change place root = root := by
  induction place generalizing root with
  | nil => exact absurd (fun h => absurd rfl h) hroom
  | cons name rest ih =>
      cases root with
      | file text => cases rest <;> rfl
      | directory entries =>
          by_cases hrest : rest = []
          · subst hrest
            exact absurd (fun _ => rfl) hroom
          · rw [alter_cons hrest, alterEntry_eq_self ?_]
            cases hfound : Text.find? name entries with
            | none => rfl
            | some found =>
                have hroom : ¬ found.HasRoom rest := fun h =>
                  hroom ((hasRoom_cons hrest).mpr ⟨found, hfound, h⟩)
                simp [ih hroom]

theorem alter_alter (hplace : place ≠ []) (hstays : (change (root.get? place)).isSome) :
    alter next place (alter change place root) = alter (next ∘ change) place root := by
  induction place generalizing root with
  | nil => exact absurd rfl hplace
  | cons name rest ih =>
      cases root with
      | file text => cases rest <;> rfl
      | directory entries =>
          by_cases hrest : rest = []
          · subst hrest
            have hfound : (change (Text.find? name entries)).isSome := by
              simpa [get?] using hstays
            rw [alter, alter, alter, alterEntry_alterEntry]
            intro hnone
            simp [hnone] at hfound
          · rw [alter_cons hrest, alter_cons hrest, alter_cons hrest,
              alterEntry_alterEntry (by simp)]
            congr 1
            apply alterEntry_congr
            cases hfound : Text.find? name entries with
            | none => rfl
            | some found =>
                have hfound : (change (found.get? rest)).isSome := by
                  simpa [get?, hfound] using hstays
                simp [ih hrest hfound]

/-! ## Putting something at a place -/

theorem get?_cons_of_entries_nil {step : Text} {rest : Place} (hleaf : tree.entries = []) :
    tree.get? (step :: rest) = none := by
  cases tree with
  | file text => rfl
  | directory entries =>
      obtain rfl : entries = [] := hleaf
      rfl

theorem get?_put_self (hroom : root.HasRoom place) : (root.put place tree).get? place = some tree :=
  get?_alter_self hroom rfl

theorem put_of_not_hasRoom (hroom : ¬ root.HasRoom place) : root.put place tree = root :=
  alter_of_not_hasRoom hroom

/-- A file or an empty directory in place of anything but a directory. -/
theorem node?_put (hroom : root.HasRoom place) (hfree : root.node? place ≠ some .directory)
    (hleaf : tree.entries = []) :
    (root.put place tree).node? other =
      if other = place then some tree.node else root.node? other := by
  by_cases hprefix : place <+: other
  · obtain ⟨more, rfl⟩ := hprefix
    cases more with
    | nil => simp [node?, get?_put_self hroom]
    | cons step rest =>
        have hbefore : root.node? (place ++ step :: rest) = none := by
          by_contra hfound
          exact hfree (node?_eq_directory_of_append (step :: rest) (by simp) hfound)
        rw [hbefore]
        simp [node?, get?_append _ place, get?_put_self hroom, get?_cons_of_entries_nil hleaf]
  · have hne : other ≠ place := by
      rintro rfl
      exact hprefix (List.prefix_refl _)
    rw [if_neg hne]
    exact node?_alter_other hprefix

theorem node?_put_file {text : String} (hroom : root.HasRoom place)
    (hfree : root.node? place ≠ some .directory) :
    (root.put place (.file text)).node? other =
      if other = place then some (.file text) else root.node? other :=
  node?_put hroom hfree rfl

theorem put_put {later : FileTree} : (root.put place tree).put place later = root.put place later := by
  by_cases hplace : place = []
  · subst hplace
    rfl
  · exact alter_alter hplace rfl

theorem remove_put (habsent : root.get? place = none) : (root.put place tree).remove place = root := by
  have hplace : place ≠ [] := by
    rintro rfl
    simp [get?] at habsent
  unfold remove put
  rw [alter_alter hplace (by simp)]
  exact alter_eq_self habsent.symm

end FileTree
end ApiBindings
