import ApiBindings.Proofs.Schema.Descent
import Mathlib.Order.Interval.Set.Basic
/-!
# Restricting a description

The document of a description holds each of its values as a node of its own, one
behind the other.  So restricting the document restricts the description: for a
language that is called like no entry that restricting reads or sets, it does not
matter that a type given for the language is one node in two places.
-/

namespace ApiBindings
namespace Availability

open Document

variable {language : Text} {limit node : Nat} {document document' : Document}

/-! ## The document of a description -/

/-- A node with all that stands in it, numbered without a break from a first node on. -/
inductive Stands (document : Document) : Nat → Nat → Prop
  | intro {first node : Nat} (start : Nat → Nat) (hfirst : first ≤ node)
      (hnode : node < document.cells.size)
      (hinside : ∀ child ∈ (document.cell node).children, first ≤ start child ∧ child < node)
      (hapart : (document.cell node).children.Pairwise fun a b => a < start b)
      (hchildren : ∀ child ∈ (document.cell node).children,
        Stands document (start child) child) : Stands document first node

theorem Stands.le {first : Nat} (hstands : Stands document first node) : first ≤ node := by
  cases hstands
  assumption

theorem Stands.lt_size {first : Nat} (hstands : Stands document first node) :
    node < document.cells.size := by
  cases hstands
  assumption

theorem Stands.agree {first : Nat} (hstands : Stands document first node)
    (hagree : Agree Set.univ document document') : Stands document' first node := by
  induction hstands with
  | @intro first node start hfirst hnode hinside hapart _ ih =>
      have hcell : document'.cell node = document.cell node := hagree.2 node hnode trivial
      refine .intro start hfirst (Nat.lt_of_lt_of_le hnode hagree.1) ?_ ?_ ?_ <;> rw [hcell]
      · exact hinside
      · exact hapart
      · exact ih

theorem Stands.laid {first : Nat} (hstands : Stands document first node)
    (hlimit : document.cells.size ≤ limit) :
    Laid language limit document (Set.Ici limit ∪ Set.Icc first node) node := by
  induction hstands with
  | @intro first node start hfirst hnode hinside hapart _ ih =>
      refine .node (fun child => Set.Ici limit ∪ Set.Icc (start child) child) (by omega)
        Set.subset_union_left (.inr ⟨hfirst, Nat.le_refl _⟩) ?_ ?_ ih
      · rintro child hchild other (hmade | ⟨hle, hge⟩)
        · exact ⟨.inl hmade, ici_subset_compl (by omega) hmade⟩
        · obtain ⟨hstart, hlt⟩ := hinside child hchild
          have hother : first ≤ other ∧ other ≤ node := by omega
          exact ⟨.inr hother, fun heq => by
            obtain rfl : other = node := heq
            omega⟩
      · refine hapart.imp ?_
        rintro a b hlt other ⟨hmade | ⟨-, hge⟩, hmade | ⟨hle, -⟩⟩
        · exact hmade
        · exact hmade
        · exact hmade
        · omega

/-- Nodes that stand one behind the other from a first node on. -/
def Row (document : Document) (first : Nat) (nodes : List Nat) : Prop :=
  ∃ start : Nat → Nat, (∀ node ∈ nodes, first ≤ start node ∧ Stands document (start node) node) ∧
    nodes.Pairwise fun a b => a < start b

theorem Row.cons {first : Nat} {nodes : List Nat} (hstands : Stands document first node)
    (hrow : Row document (node + 1) nodes) : Row document first (node :: nodes) := by
  obtain ⟨start, hnodes, hapart⟩ := hrow
  have hne : ∀ other ∈ nodes, other ≠ node := by
    intro other hother
    obtain ⟨hstart, hstands⟩ := hnodes other hother
    have := hstands.le
    omega
  have hself : Function.update start node first node = first := Function.update_self ..
  have hother : ∀ other ∈ nodes, Function.update start node first other = start other :=
    fun other hmem => Function.update_of_ne (hne other hmem) ..
  refine ⟨Function.update start node first, List.forall_mem_cons.mpr ⟨?_, fun other hmem => ?_⟩,
    List.pairwise_cons.mpr ⟨fun other hmem => ?_, ?_⟩⟩
  · rw [hself]
    exact ⟨Nat.le_refl _, hstands⟩
  · rw [hother other hmem]
    obtain ⟨hstart, hlast⟩ := hnodes other hmem
    have hle := hstands.le
    exact ⟨by omega, hlast⟩
  · rw [hother other hmem]
    exact (hnodes other hmem).1
  · refine hapart.imp_of_mem fun {a b} _ hmem hlt => ?_
    rw [hother b hmem]
    exact hlt

/-- A node was added behind the others that stands for a value. -/
structure Added (document document' : Document) (node : Nat) (value : Json) : Prop where
  sound : Sound document'.cells.size document'
  agree : Agree Set.univ document document'
  last : document'.cells.size = node + 1
  stands : Stands document' document.cells.size node
  value : document'.value node = value

/-- Nodes were added behind the others, one behind the other. -/
structure AddedAll (document document' : Document) (nodes : List Nat) (values : List Json) :
    Prop where
  sound : Sound document'.cells.size document'
  agree : Agree Set.univ document document'
  inside : ∀ node ∈ nodes, node < document'.cells.size
  row : Row document' document.cells.size nodes
  values : nodes.map document'.value = values

theorem AddedAll.cons {middle : Document} {nodes : List Nat} {value : Json} {values : List Json}
    (hadded : Added document middle node value) (hrest : AddedAll middle document' nodes values) :
    AddedAll document document' (node :: nodes) (value :: values) := by
  have hsize : node < middle.cells.size := hadded.stands.lt_size
  refine ⟨hrest.sound, hadded.agree.trans hrest.agree, ?_, ?_, ?_⟩
  · exact List.forall_mem_cons.mpr ⟨Nat.lt_of_lt_of_le hsize hrest.agree.1, hrest.inside⟩
  · refine Row.cons (hadded.stands.agree hrest.agree) ?_
    rw [← hadded.last]
    exact hrest.row
  · have hwithin := hadded.sound.within_univ hsize
    rw [List.map_cons, hrest.values, hwithin.value_agree hadded.sound hrest.sound hrest.agree,
      hadded.value]

/-- A list or an object is added behind what stands in it. -/
theorem AddedAll.push {nodes : List Nat} {values : List Json} {cell : Cell} {value : Json}
    (hadded : AddedAll document document' nodes values) (hcell : cell.children = nodes)
    (hscalar : ∀ value, cell = .leaf value →
      (∀ items, value ≠ .arr items) ∧ ∀ entries, value ≠ .obj entries)
    (hvalue : ∀ value', nodes.map value' = values → cell.valueWith value' = value) :
    Added document (document'.push cell) document'.cells.size value := by
  have hpush := agree_push document' cell
  have hown : (document'.push cell).cell document'.cells.size = cell := by simp [cell_push]
  have hsound : Sound (document'.push cell).cells.size (document'.push cell) := by
    refine hadded.sound.push_cell (fun child hchild => ?_) hscalar
    rw [hcell] at hchild
    exact hadded.inside child hchild
  refine ⟨hsound, hadded.agree.trans hpush, size_push document' cell, ?_, ?_⟩
  · obtain ⟨start, hnodes, hapart⟩ := hadded.row
    refine .intro start hadded.agree.1 (by simp) ?_ ?_ ?_ <;> rw [hown, hcell]
    · exact fun child hchild => ⟨(hnodes child hchild).1, hadded.inside child hchild⟩
    · exact hapart
    · exact fun child hchild => (hnodes child hchild).2.agree hpush
  · rw [hsound.value_eq, hown]
    refine hvalue _ ?_
    rw [← hadded.values]
    exact List.map_congr_left fun other hother =>
      (hadded.sound.within_univ (hadded.inside other hother)).value_agree hadded.sound hsound hpush

theorem addedAll_nil (hsound : Sound document.cells.size document) :
    AddedAll document document [] [] where
  sound := hsound
  agree := ⟨Nat.le_refl _, fun _ _ _ => rfl⟩
  inside := by simp
  row := ⟨id, by simp, List.Pairwise.nil⟩
  values := rfl

theorem added_leaf (hsound : Sound document.cells.size document) {value : Json}
    (harr : ∀ items, value ≠ .arr items) (hobj : ∀ entries, value ≠ .obj entries) :
    Added document (document.push (.leaf value)) document.cells.size value := by
  refine (addedAll_nil hsound).push rfl ?_ fun _ _ => rfl
  rintro _ ⟨⟩
  exact ⟨harr, hobj⟩

theorem map_entries_eq {nodes : List (Text × Nat)} {entries : List (Text × Json)}
    {value : Nat → Json} (hkeys : nodes.map Prod.fst = entries.map Prod.fst)
    (hvalues : (nodes.map Prod.snd).map value = entries.map Prod.snd) :
    nodes.map (fun entry => (entry.1, value entry.2)) = entries := by
  induction nodes generalizing entries with
  | nil =>
      obtain rfl : entries = [] := by simpa using hkeys.symm
      rfl
  | cons node rest ih =>
      cases entries with
      | nil => simp at hkeys
      | cons entry others =>
          simp only [List.map_cons, List.cons.injEq] at hkeys hvalues ⊢
          exact ⟨Prod.ext hkeys.1 hvalues.1, ih hkeys.2 hvalues.2⟩

mutual

theorem added_addTree : ∀ (value : Json) (document : Document),
    Sound document.cells.size document →
    Added document ((addTree value).run document).2 ((addTree value).run document).1 value
  | .arr items, document, hsound => by
      have hall := addedAll_addTrees items document hsound
      exact hall.push rfl (by simp) fun value' hvalues => congrArg Json.arr hvalues
  | .obj entries, document, hsound => by
      obtain ⟨hall, hkeys⟩ := addedAll_addEntries entries document hsound
      exact hall.push rfl (by simp) fun value' hvalues =>
        congrArg Json.obj (map_entries_eq hkeys hvalues)
  | .null, _, hsound => added_leaf hsound (by simp) (by simp)
  | .bool _, _, hsound => added_leaf hsound (by simp) (by simp)
  | .int _, _, hsound => added_leaf hsound (by simp) (by simp)
  | .float _, _, hsound => added_leaf hsound (by simp) (by simp)
  | .str _, _, hsound => added_leaf hsound (by simp) (by simp)

theorem addedAll_addTrees : ∀ (items : List Json) (document : Document),
    Sound document.cells.size document →
    AddedAll document ((addTrees items).run document).2 ((addTrees items).run document).1 items
  | [], _, hsound => addedAll_nil hsound
  | item :: rest, document, hsound => by
      have hfirst := added_addTree item document hsound
      exact .cons hfirst (addedAll_addTrees rest _ hfirst.sound)

theorem addedAll_addEntries : ∀ (entries : List (Text × Json)) (document : Document),
    Sound document.cells.size document →
    AddedAll document ((addEntries entries).run document).2
        (((addEntries entries).run document).1.map Prod.snd) (entries.map Prod.snd) ∧
      ((addEntries entries).run document).1.map Prod.fst = entries.map Prod.fst
  | [], _, hsound => ⟨addedAll_nil hsound, rfl⟩
  | (key, value) :: rest, document, hsound => by
      have hfirst := added_addTree value document hsound
      obtain ⟨hall, hkeys⟩ := addedAll_addEntries rest _ hfirst.sound
      exact ⟨.cons hfirst hall, congrArg (key :: ·) hkeys⟩

end

/-- The document that is restricted starts with nothing but the description. -/
theorem sound_empty : Sound Document.empty.cells.size .empty where
  bound := Nat.le_refl _
  below node child hchild := by
    rw [cell_of_size_le (Nat.zero_le node)] at hchild
    cases hchild
  scalar node value hcell := by
    rw [cell_of_size_le (Nat.zero_le node)] at hcell
    obtain rfl : Json.null = value := by simpa using hcell
    simp
  made node _ := .inl ⟨.null, cell_of_size_le (Nat.zero_le node)⟩

/-- For a language that is called like no entry that restricting reads or sets, a
description is restricted as if nothing in it were shared: with the same failure,
or with the same result and the same number of nodes dropped. -/
theorem restrictShared_eq_restrictTree (language : Text) (hword : isEntryWord language = false)
    (tree : Json) (hproper : tree.Proper) :
    restrictShared language tree = restrictTree language tree := by
  have hadded := added_addTree tree .empty sound_empty
  unfold restrictShared restrictTree
  generalize (addTree tree).run .empty = added at hadded
  obtain ⟨root, document⟩ := added
  obtain ⟨hsound, -, hlast, hstands, hvalue⟩ := hadded
  dsimp only at hsound hlast hstands hvalue ⊢
  have hvisit := restricts_restrictNode hword document.cells.size document.cells.size document root
    _ 0 hsound (hstands.laid (Nat.le_refl _)) (hvalue ▸ hproper) (.inl (by omega))
  rw [hvalue] at hvisit
  cases hrun : restrictAt language [] tree with
  | error failure =>
      rw [hrun] at hvisit
      have hfailed : (restrictNode language document.cells.size root).run ⟨document, 0⟩ =
          .error failure := hvisit
      rw [hfailed]
      rfl
  | ok result =>
      obtain ⟨left, count⟩ := result
      rw [hrun] at hvisit
      obtain ⟨_, document', hran, hvisited⟩ := hvisit
      rw [hran]
      change Except.ok (document'.value root, 0 + count) = _
      rw [hvisited.value, Nat.zero_add]

/-- So restricting a shared type once or twice makes no difference to what becomes
of a description, whatever the language is called. -/
theorem restrict_eq_restrictShared (language : Text) (tree : Json) (hproper : tree.Proper) :
    restrict language tree = restrictShared language tree := by
  unfold restrict
  split
  next => rfl
  next hword =>
    exact (restrictShared_eq_restrictTree language (Bool.eq_false_iff.mpr hword) tree hproper).symm

end Availability
end ApiBindings
