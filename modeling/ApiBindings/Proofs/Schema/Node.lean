import ApiBindings.Proofs.Json.Inside
import ApiBindings.Proofs.Steps
import ApiBindings.Schema.Restriction
/-!
# Restricting one node

To restrict a node, the name and the type that it has in the language are put in
place, and then each entry is restricted or dropped on its own.  So an entry of
the restricted node tells of one entry of the node before, apart from the name
and the type.
-/

namespace ApiBindings
namespace Availability

variable {language : Text}

/-- Restrict the value of an entry, unless it is dropped. -/
def plainOutcome (language : Text) (value : Json) : Outcome := do
  if ← isAvailable language value then
    let (value, dropped) ← restrictAt language [] value
    return (some value, dropped)
  else return (none, 1)

/-- What becomes of the type given to a node.  What is dropped inside it counts
where the type is declared, if that is reached. -/
def givenOutcome (language : Text) (entries : List (Text × Json)) : Json → Outcome
  | .str name => .ok (some (.obj [("name", .str name)]), 0)
  | given => do
    let (value?, dropped) ← plainOutcome language given
    return (value?, if value?.isSome && reachesTypes language entries then 0 else dropped)

/-- What becomes of the name given to a node. -/
def aliasOutcome (name : Text) : Outcome :=
  .ok (some (.str name), 0)

/-- What becomes of an entry, of which the name and the type may be settled. -/
def entryOutcome (language : Text) (name type : Option Outcome) (key : Text) (value : Json) :
    Outcome :=
  ((if key = "name" then name else if key = "type" then type else none)).getD
    (plainOutcome language value)

/-- A place behind the entries for one that is settled and missing. -/
def placeFor (key : Text) (settled : Option Outcome) (entries : List (Text × Json)) :
    List (Text × Json) :=
  if settled.isSome && (Text.find? key entries).isNone then [(key, .null)] else []

/-- The entries with places for the name and the type. -/
def withPlaces (name type : Option Outcome) (entries : List (Text × Json)) : List (Text × Json) :=
  entries ++ placeFor "name" name entries ++ placeFor "type" type entries

/-! ## The steps of restricting -/

theorem restrictEntry_eq (key : Text) (keys : List Text) (entries : List (Text × Json)) :
    restrictEntry language key keys entries =
      match Text.find? key entries with
      | none => .ok (.null, 0)
      | some value => restrictAt language keys value := by
  induction entries with
  | nil => rfl
  | cons entry rest ih =>
      obtain ⟨k, v⟩ := entry
      rw [restrictEntry, Text.find?_cons]
      by_cases hkey : k = key
      · simp [hkey]
      · rw [if_neg hkey, if_neg (Ne.symm hkey), ih]

theorem restrictEntries_cons (name type : Option Outcome) (key : Text) (value : Json)
    (rest : List (Text × Json)) :
    restrictEntries language name type ((key, value) :: rest) = (do
      let (value?, dropped) ← entryOutcome language name type key value
      let (others, droppedOthers) ← restrictEntries language name type rest
      return ((value?.map fun value => (key, value)).toList ++ others,
        dropped + droppedOthers)) := by
  rw [restrictEntries]
  unfold entryOutcome
  dsimp only
  generalize (if key = "name" then name else if key = "type" then type else none) = settled
  cases settled with
  | some outcome => rfl
  | none =>
      simp only [Option.getD_none, plainOutcome]
      cases isAvailable language value with
      | error failure => rfl
      | ok available =>
          cases available with
          | false => rfl
          | true => cases restrictAt language [] value <;> rfl

theorem restrictEntries_append (name type : Option Outcome) (first second : List (Text × Json)) :
    restrictEntries language name type (first ++ second) = (do
      let (kept, dropped) ← restrictEntries language name type first
      let (others, droppedOthers) ← restrictEntries language name type second
      return (kept ++ others, dropped + droppedOthers)) := by
  induction first with
  | nil =>
      rw [List.nil_append]
      cases restrictEntries language name type second <;>
        simp [restrictEntries, bind, Except.bind, pure, Except.pure]
  | cons entry rest ih =>
      obtain ⟨key, value⟩ := entry
      rw [List.cons_append, restrictEntries_cons, restrictEntries_cons, ih]
      cases entryOutcome language name type key value with
      | error failure => rfl
      | ok first =>
          cases restrictEntries language name type rest with
          | error failure => rfl
          | ok kept =>
              cases restrictEntries language name type second with
              | error failure => rfl
              | ok others => simp [bind, Except.bind, pure, Except.pure, Nat.add_assoc]

/-! ## What a node declares -/

/-- What a node says under a key of its `langs`. -/
def declared? (key : Text) (entries : List (Text × Json)) : Option Json :=
  (langs? entries).bind (Text.find? key)

theorem langs?_eq_some {entries langs : List (Text × Json)} :
    langs? entries = some langs ↔ Text.find? "langs" entries = some (.obj langs) := by
  unfold langs?
  split <;> simp_all

theorem declared?_eq_some {key : Text} {entries : List (Text × Json)} {value : Json} :
    declared? key entries = some value ↔
      ∃ langs, Text.find? "langs" entries = some (.obj langs) ∧
        Text.find? key langs = some value := by
  simp only [declared?, Option.bind_eq_some_iff, langs?_eq_some]

theorem isAvailable_obj (entries : List (Text × Json)) :
    isAvailable language (.obj entries) = match declared? "only" entries with
      | none => .ok true
      | some (.arr allowed) => .ok (allowed.isEmpty || allowed.any (Json.isText language))
      | some other => .error (failure (.onlyNotAList other) entries) :=
  rfl

theorem alias?_eq (entries : List (Text × Json)) :
    alias? language entries = match declared? "aliases" entries with
      | none => .ok none
      | some (.obj aliases) =>
        match Text.find? language aliases with
        | none | some .null => .ok none
        | some (.str name) =>
          if name = "" then .error (failure (.badAlias language (.str name)) entries)
          else .ok (some name)
        | some other => .error (failure (.badAlias language other) entries)
      | some other => .error (failure (.aliasesNotAnObject other) entries) :=
  rfl

theorem givenType?_eq (entries : List (Text × Json)) :
    givenType? language entries = match declared? "types" entries with
      | none => .ok none
      | some (.obj types) =>
        match Text.find? language types with
        | none | some .null => .ok none
        | some (.str name) => .ok (some (.str name))
        | some other =>
          match other.get? "name" with
          | some (.str _) => .ok (some other)
          | _ => .error (failure (.overrideWithoutName language other) entries)
      | some other => .error (failure (.typesNotAnObject other) entries) :=
  rfl

/-- The type given to a node, found where it is declared. -/
theorem givenType?_some {entries : List (Text × Json)} {given : Json}
    (hgiven : givenType? language entries = .ok (some given)) :
    ∃ types, declared? "types" entries = some (.obj types) ∧
      Text.find? language types = some given := by
  rw [givenType?_eq] at hgiven
  cases htypes : declared? "types" entries with
  | none => simp [htypes] at hgiven
  | some declared =>
      rw [htypes] at hgiven
      cases declared with
      | obj types =>
          refine ⟨types, rfl, ?_⟩
          dsimp only at hgiven
          cases hfound : Text.find? language types with
          | none => simp [hfound] at hgiven
          | some found =>
              rw [hfound] at hgiven
              cases found with
              | null => simp at hgiven
              | str name => simpa using hgiven
              | _ =>
                  dsimp only at hgiven
                  split at hgiven
                  next => simpa using hgiven
                  next => simp at hgiven
      | _ => simp at hgiven

theorem below_of_givenType? {entries : List (Text × Json)} {given : Json}
    (hgiven : givenType? language entries = .ok (some given)) :
    Json.Below given (.obj entries) := by
  obtain ⟨types, htypes, hgiven⟩ := givenType?_some hgiven
  obtain ⟨langs, hlangs, htypes⟩ := declared?_eq_some.mp htypes
  have hinTypes : Json.Child given (.obj types) := .value (Json.mem_of_find? hgiven)
  have hinLangs : Json.Child (.obj types) (.obj langs) := .value (Json.mem_of_find? htypes)
  have hinNode : Json.Child (.obj langs) (.obj entries) := .value (Json.mem_of_find? hlangs)
  exact ((Relation.TransGen.single hinTypes).tail hinLangs).tail hinNode

theorem restrictEntry_given {entries : List (Text × Json)} {given : Json}
    (hgiven : givenType? language entries = .ok (some given)) :
    restrictEntry language "langs" ["types", language] entries =
      restrictAt language [] given := by
  obtain ⟨types, htypes, hgiven⟩ := givenType?_some hgiven
  obtain ⟨langs, hlangs, htypes⟩ := declared?_eq_some.mp htypes
  simp only [restrictEntry_eq, restrictAt, hlangs, htypes, hgiven]

theorem find?_setEntry (key other : Text) (value : Json) (entries : List (Text × Json)) :
    Text.find? other (Json.setEntry key value entries) =
      if other = key then some value else Text.find? other entries := by
  induction entries with
  | nil => simp [Json.setEntry, Text.find?_cons]
  | cons entry rest ih =>
      obtain ⟨k, v⟩ := entry
      rw [Json.setEntry]
      split
      next hkey =>
        subst hkey
        simp only [Text.find?_cons]
        split <;> rfl
      next hkey =>
        simp only [Text.find?_cons, ih]
        by_cases hother : other = k
        · simp [hother, hkey]
        · simp [hother]

/-- The name set in a node has no part in the type that it is given. -/
theorem givenType?_setName {name : Text} {entries : List (Text × Json)} {given : Option Json} :
    givenType? language (Json.setEntry "name" (.str name) entries) = .ok given ↔
      givenType? language entries = .ok given := by
  have htypes : declared? "types" (Json.setEntry "name" (.str name) entries) =
      declared? "types" entries := by
    unfold declared? langs?
    rw [find?_setEntry, if_neg (by decide)]
  rw [givenType?_eq, givenType?_eq, htypes]
  split <;> try simp
  split <;> try simp
  split <;> simp

/-- What becomes of the type given to a node, as restricting the node works it out. -/
theorem givenOutcome_eq {entries : List (Text × Json)} {given : Json}
    (hgiven : givenType? language entries = .ok (some given)) (htext : ∀ name, given ≠ .str name) :
    givenOutcome language entries given = (do
      if ← isAvailable language given then
        let (given, dropped) ← restrictEntry language "langs" ["types", language] entries
        return (some given, if reachesTypes language entries then 0 else dropped)
      else return (none, 1)) := by
  have hplain : givenOutcome language entries given = (do
      let (value?, dropped) ← plainOutcome language given
      return (value?, if value?.isSome && reachesTypes language entries then 0 else dropped)) := by
    cases given with
    | str name => exact absurd rfl (htext name)
    | _ => rfl
  rw [hplain, restrictEntry_given hgiven, plainOutcome]
  cases isAvailable language given with
  | error failure => rfl
  | ok available =>
      cases available with
      | false => rfl
      | true => cases restrictAt language [] given <;> rfl

theorem appended_eq {name type settled : Option Outcome} {key : Text} {outcome : Outcome}
    (hsettled : settled = some outcome)
    (hkey : (if key = "name" then name else if key = "type" then type else none) = settled) :
    appended key outcome = restrictEntries language name type [(key, .null)] := by
  subst hsettled
  rw [restrictEntries_cons, entryOutcome, hkey, appended]
  cases outcome with
  | error failure => rfl
  | ok result => simp [restrictEntries, bind, Except.bind, pure, Except.pure]

/-- What comes behind the other entries for one that is settled and missing. -/
def ownEntry (key : Text) (settled : Option Outcome) (entries : List (Text × Json)) :
    Except Failure (List (Text × Json) × Nat) :=
  match settled, Text.find? key entries with
  | some outcome, none => appended key outcome
  | _, _ => .ok ([], 0)

theorem restrictEntries_placeFor {name type settled : Option Outcome} {key : Text}
    {entries : List (Text × Json)}
    (hkey : (if key = "name" then name else if key = "type" then type else none) = settled) :
    restrictEntries language name type (placeFor key settled entries) =
      ownEntry key settled entries := by
  unfold placeFor ownEntry
  cases settled with
  | none => rfl
  | some outcome =>
      cases Text.find? key entries with
      | some value => rfl
      | none => exact (appended_eq rfl hkey).symm

theorem restrictEntries_withPlaces (name type : Option Outcome) (entries : List (Text × Json)) :
    restrictEntries language name type (withPlaces name type entries) = (do
      let (kept, dropped) ← restrictEntries language name type entries
      let (ownName, droppedName) ← ownEntry "name" name entries
      let (ownType, droppedType) ← ownEntry "type" type entries
      return (kept ++ ownName ++ ownType, dropped + droppedName + droppedType)) := by
  have hname : restrictEntries language name type (placeFor "name" name entries) =
      ownEntry "name" name entries := restrictEntries_placeFor rfl
  have htype : restrictEntries language name type (placeFor "type" type entries) =
      ownEntry "type" type entries := restrictEntries_placeFor rfl
  rw [withPlaces, restrictEntries_append, restrictEntries_append, hname, htype]
  simp only [bind_assoc, pure_bind]

theorem restrictAt_obj (entries : List (Text × Json)) :
    restrictAt language [] (.obj entries) = (do
      let name ← alias? language entries
      let given ← givenType? language ((name.map fun name =>
        Json.setEntry "name" (.str name) entries).getD entries)
      let name := name.map aliasOutcome
      let type := given.map (givenOutcome language entries)
      let (kept, dropped) ← restrictEntries language name type (withPlaces name type entries)
      return (.obj kept, dropped)) := by
  rw [restrictAt]
  cases alias? language entries with
  | error failure => rfl
  | ok name =>
      have hbehind : ∀ type : Option Outcome, (do
          let name : Option Outcome := name.map fun name => .ok (some (.str name), 0)
          let (kept, dropped) ← restrictEntries language name type entries
          let (ownName, _) ← match name, Text.find? "name" entries with
            | some outcome, none => appended "name" outcome
            | _, _ => .ok ([], 0)
          let (ownType, droppedType) ← match type, Text.find? "type" entries with
            | some outcome, none => appended "type" outcome
            | _, _ => .ok ([], 0)
          return (Json.obj (kept ++ ownName ++ ownType), dropped + droppedType)) = (do
          let name := name.map aliasOutcome
          let (kept, dropped) ← restrictEntries language name type (withPlaces name type entries)
          return (.obj kept, dropped)) := by
        intro type
        simp only [restrictEntries_withPlaces, ownEntry, bind_assoc, pure_bind]
        refine bind_congr fun kept => ?_
        cases name <;> cases type <;> cases Text.find? "name" entries <;>
          cases Text.find? "type" entries <;> rfl
      have hgiven : ∀ given, givenType? language ((name.map fun name =>
          Json.setEntry "name" (.str name) entries).getD entries) = .ok given →
          givenType? language entries = .ok given := by
        intro given hrenamed
        cases name with
        | none => exact hrenamed
        | some name => exact givenType?_setName.mp hrenamed
      cases name <;> dsimp only [Option.map, Option.getD, bind, Except.bind] at hbehind hgiven ⊢
      all_goals
        split
        next => rfl
        next given hrenamed =>
          have hgiven := hgiven given hrenamed
          cases given with
          | none => exact hbehind none
          | some given =>
              cases given with
              | str name => exact hbehind (some (.ok (some (.obj [("name", .str name)]), 0)))
              | _ =>
                  have htype := givenOutcome_eq hgiven (by simp)
                  dsimp only [bind, Except.bind] at htype ⊢
                  rw [htype]
                  exact hbehind _

/-! ## What is found in a restricted node -/

/-- The value that an entry is left with, if it is kept. -/
def result? : Outcome → Option Json
  | .ok (value?, _) => value?
  | .error _ => none

/-- The type that a node gets for the one it is given. -/
def typeFor : Json → Json
  | .str name => .obj [("name", .str name)]
  | given => given

/-- The entries of a node with the name and the type that it is given. -/
def applied (name : Option Text) (given : Option Json) (entries : List (Text × Json)) :
    List (Text × Json) :=
  let renamed := (name.map fun name => Json.setEntry "name" (.str name) entries).getD entries
  (given.map fun given => Json.setEntry "type" (typeFor given) renamed).getD renamed

theorem find?_applied {name : Option Text} {given : Option Json} {entries : List (Text × Json)}
    (key : Text) :
    Text.find? key (applied name given entries) =
      if key = "name" ∧ name.isSome then name.map .str
      else if key = "type" ∧ given.isSome then given.map typeFor
      else Text.find? key entries := by
  have htype : ("name" : Text) ≠ "type" := by decide
  unfold applied
  cases name with
  | none => cases given <;> simp [find?_setEntry]
  | some name =>
      cases given with
      | none => simp [find?_setEntry]
      | some given =>
          by_cases hkey : key = "name"
          · simp [find?_setEntry, hkey, htype]
          · simp [find?_setEntry, hkey]

theorem find?_applied_name (name : Text) (given : Option Json) (entries : List (Text × Json)) :
    Text.find? "name" (applied (some name) given entries) = some (.str name) := by
  simp [find?_applied]

theorem find?_applied_type (name : Option Text) (given : Json) (entries : List (Text × Json)) :
    Text.find? "type" (applied name (some given) entries) = some (typeFor given) := by
  have hkeys : ("type" : Text) ≠ "name" := by decide
  simp [find?_applied, hkeys]

theorem find?_applied_of_ne {name : Option Text} {given : Option Json}
    {entries : List (Text × Json)} {key : Text} (hname : key ≠ "name") (htype : key ≠ "type") :
    Text.find? key (applied name given entries) = Text.find? key entries := by
  simp [find?_applied, hname, htype]

theorem find?_eq_none_iff {key : Text} {entries : List (Text × Json)} :
    Text.find? key entries = none ↔ key ∉ entries.map Prod.fst := by
  induction entries with
  | nil => simp
  | cons entry rest ih =>
      obtain ⟨k, v⟩ := entry
      rw [Text.find?_cons, List.map_cons, List.mem_cons, not_or, ← ih]
      by_cases hkey : key = k <;> simp [hkey]

theorem restrictEntries_cons_ok {name type : Option Outcome} {key : Text} {value : Json}
    {rest kept : List (Text × Json)} {dropped : Nat}
    (hrun : restrictEntries language name type ((key, value) :: rest) = .ok (kept, dropped)) :
    ∃ value? others droppedHere droppedOthers,
      entryOutcome language name type key value = .ok (value?, droppedHere) ∧
      restrictEntries language name type rest = .ok (others, droppedOthers) ∧
      kept = (value?.map fun value => (key, value)).toList ++ others ∧
      dropped = droppedHere + droppedOthers := by
  rw [restrictEntries_cons] at hrun
  obtain ⟨⟨value?, droppedHere⟩, hentry, hrun⟩ := exists_of_bind_ok hrun
  obtain ⟨⟨others, droppedOthers⟩, hothers, hrun⟩ := exists_of_bind_ok hrun
  obtain ⟨rfl, rfl⟩ := Prod.ext_iff.mp (Except.ok.inj hrun)
  exact ⟨value?, others, droppedHere, droppedOthers, hentry, hothers, rfl, rfl⟩

theorem keys_restrictEntries {name type : Option Outcome} {entries kept : List (Text × Json)}
    {dropped : Nat} (hrun : restrictEntries language name type entries = .ok (kept, dropped)) :
    (kept.map Prod.fst).Sublist (entries.map Prod.fst) := by
  induction entries generalizing kept dropped with
  | nil =>
      obtain ⟨rfl, -⟩ := Prod.ext_iff.mp (Except.ok.inj hrun)
      exact List.Sublist.refl _
  | cons entry rest ih =>
      obtain ⟨value?, others, _, _, _, hothers, rfl, _⟩ := restrictEntries_cons_ok hrun
      have hrest := ih hothers
      cases value? with
      | none => exact hrest.cons entry.1
      | some value => exact hrest.cons_cons entry.1

theorem find?_restrictEntries {name type : Option Outcome} {entries kept : List (Text × Json)}
    {dropped : Nat} (hkeys : (entries.map Prod.fst).Nodup)
    (hrun : restrictEntries language name type entries = .ok (kept, dropped)) (key : Text) :
    Text.find? key kept = (Text.find? key entries).bind fun value =>
      result? (entryOutcome language name type key value) := by
  induction entries generalizing kept dropped with
  | nil =>
      obtain ⟨rfl, -⟩ := Prod.ext_iff.mp (Except.ok.inj hrun)
      rfl
  | cons entry rest ih =>
      obtain ⟨k, v⟩ := entry
      obtain ⟨hnew, hrest⟩ := List.nodup_cons.mp hkeys
      obtain ⟨value?, others, _, _, hentry, hothers, rfl, _⟩ := restrictEntries_cons_ok hrun
      have hfound := ih hrest hothers
      rw [Text.find?_cons]
      by_cases hkey : key = k
      · subst hkey
        have hmissing : Text.find? key others = none :=
          find?_eq_none_iff.mpr fun hmem => hnew ((keys_restrictEntries hothers).subset hmem)
        rw [if_pos rfl, Option.bind_some, hentry]
        cases value? with
        | none => exact hmissing
        | some value => simp [result?, Text.find?_cons]
      · rw [if_neg hkey, ← hfound]
        cases value? with
        | none => rfl
        | some value => simp [Text.find?_cons, hkey]

theorem find?_append (key : Text) (first second : List (Text × Json)) :
    Text.find? key (first ++ second) = (Text.find? key first).or (Text.find? key second) :=
  List.lookup_append

theorem find?_placeFor (key other : Text) (settled : Option Outcome)
    (entries : List (Text × Json)) :
    Text.find? other (placeFor key settled entries) =
      if other = key ∧ settled.isSome ∧ Text.find? key entries = none then some .null
      else none := by
  unfold placeFor
  cases settled <;> cases Text.find? key entries <;> simp [Text.find?_cons]

theorem nodup_withPlaces {name type : Option Outcome} {entries : List (Text × Json)}
    (hkeys : (entries.map Prod.fst).Nodup) :
    ((withPlaces name type entries).map Prod.fst).Nodup := by
  have htype : ("type" : Text) ≠ "name" := by decide
  have hplace : ∀ {key} {settled : Option Outcome} {places : List (Text × Json)},
      Text.find? key places = Text.find? key entries → (places.map Prod.fst).Nodup →
      ((places ++ placeFor key settled entries).map Prod.fst).Nodup := by
    intro key settled places hfound hplaces
    unfold placeFor
    split
    next hmissing =>
      rw [Bool.and_eq_true, Option.isNone_iff_eq_none, ← hfound] at hmissing
      rw [List.map_append, List.nodup_append]
      refine ⟨hplaces, by simp, ?_⟩
      rintro k hk _ hkey rfl
      obtain rfl : k = key := by simpa using hkey
      exact find?_eq_none_iff.mp hmissing.2 hk
    next => simpa using hplaces
  refine hplace ?_ (hplace rfl hkeys)
  rw [find?_append, find?_placeFor]
  simp [htype]

/-- What is left of a value, if it is kept. -/
def left? (language : Text) (value : Json) : Option Json :=
  result? (plainOutcome language value)

theorem left?_eq_some {value left : Json} :
    left? language value = some left ↔ isAvailable language value = .ok true ∧
      ∃ dropped, restrictAt language [] value = .ok (left, dropped) := by
  unfold left? plainOutcome
  cases isAvailable language value with
  | error failure => simp [result?, bind, Except.bind]
  | ok available =>
      cases available with
      | false => simp [result?, bind, Except.bind, pure, Except.pure]
      | true =>
          cases restrictAt language [] value with
          | error failure => simp [result?, bind, Except.bind]
          | ok result =>
              obtain ⟨v, d⟩ := result
              simp [result?, bind, Except.bind, pure, Except.pure]

theorem left?_str (text : Text) : left? language (.str text) = some (.str text) := rfl

theorem result?_givenOutcome (entries : List (Text × Json)) (given : Json) :
    result? (givenOutcome language entries given) = left? language (typeFor given) := by
  have hplain : ∀ outcome : Outcome, result? (do
      let (value?, dropped) ← outcome
      return (value?, if value?.isSome && reachesTypes language entries then 0 else dropped)) =
      result? outcome := by
    intro outcome
    cases outcome <;> rfl
  cases given with
  | str name => rfl
  | _ => exact hplain _

/-- What is left of an entry tells nothing of a place that was made for it. -/
theorem bind_entryOutcome (name : Option Text) (given : Option Json)
    (entries : List (Text × Json)) (key : Text) :
    let settled := name.map aliasOutcome
    let type := given.map (givenOutcome language entries)
    ((Text.find? key (withPlaces settled type entries)).bind fun value =>
        result? (entryOutcome language settled type key value)) =
      (Text.find? key (applied name given entries)).bind (left? language) := by
  intro settled type
  have hplain : (left? language) = fun value => result? (plainOutcome language value) := rfl
  have hkeys : ("type" : Text) ≠ "name" := by decide
  rw [withPlaces, find?_append, find?_append, find?_placeFor, find?_placeFor, find?_applied]
  by_cases hname : key = "name"
  · subst hname
    cases name with
    | none => simp [settled, entryOutcome, hplain, hkeys.symm]
    | some name =>
        have hleft : result? (aliasOutcome name) = left? language (.str name) := rfl
        cases Text.find? "name" entries <;> simp [settled, entryOutcome, hleft]
  · by_cases htype : key = "type"
    · subst htype
      cases given with
      | none => simp [type, entryOutcome, hplain, hname]
      | some given =>
          have hleft : result? (givenOutcome language entries given) =
              left? language (typeFor given) := result?_givenOutcome entries given
          cases Text.find? "type" entries <;> simp [type, entryOutcome, hname, hleft]
    · simp [entryOutcome, hplain, hname, htype]

/-- Each entry of a restricted node is what is left of the one that is set there. -/
theorem restrictAt_obj_ok {entries : List (Text × Json)} {result : Json} {dropped : Nat}
    (hkeys : (entries.map Prod.fst).Nodup)
    (hrun : restrictAt language [] (.obj entries) = .ok (result, dropped)) :
    ∃ name given kept, alias? language entries = .ok name ∧
      givenType? language entries = .ok given ∧ result = .obj kept ∧
      (kept.map Prod.fst).Nodup ∧
      ∀ key, Text.find? key kept =
        (Text.find? key (applied name given entries)).bind (left? language) := by
  rw [restrictAt_obj] at hrun
  obtain ⟨name, hname, hrun⟩ := exists_of_bind_ok hrun
  obtain ⟨given, hrenamed, hrun⟩ := exists_of_bind_ok hrun
  obtain ⟨⟨kept, droppedHere⟩, hkept, hrun⟩ := exists_of_bind_ok hrun
  obtain ⟨rfl, -⟩ := Prod.ext_iff.mp (Except.ok.inj hrun)
  have hgiven : givenType? language entries = .ok given := by
    cases name with
    | none => exact hrenamed
    | some name => exact givenType?_setName.mp hrenamed
  have hplaces : ((withPlaces (name.map aliasOutcome) (given.map (givenOutcome language entries))
      entries).map Prod.fst).Nodup := nodup_withPlaces hkeys
  refine ⟨name, given, kept, hname, hgiven, rfl,
    hplaces.sublist (keys_restrictEntries hkept), fun key => ?_⟩
  rw [find?_restrictEntries hplaces hkept]
  exact bind_entryOutcome name given entries key

end Availability
end ApiBindings
