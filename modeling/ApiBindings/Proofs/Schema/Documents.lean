import ApiBindings.Proofs.Json.Inside
import ApiBindings.Schema.SharedDocument
import Mathlib.Data.Set.Basic
import Mathlib.Order.Interval.Set.Defs
/-!
# Documents with shared nodes

The nodes that a document starts with are numbered from below, each one after the
nodes in it; the nodes made later are leaves, or objects that hold nothing but
one.  So nothing is put below itself, and each node stands for a value that is
made of the values of the nodes in it.

What a node stands for depends only on the nodes that it reaches.  A change
elsewhere leaves the value as it was.
-/

namespace ApiBindings

/-- The nodes right in a node. -/
def Cell.children : Cell → List Nat
  | .leaf _ => []
  | .list items => items
  | .object entries => entries.map Prod.snd

/-- The value that a node is made into by the values of the nodes in it. -/
def Cell.valueWith (value : Nat → Json) : Cell → Json
  | .leaf scalar => scalar
  | .list items => .arr (items.map value)
  | .object entries => .obj (entries.map fun entry => (entry.1, value entry.2))

theorem Cell.valueWith_congr {cell : Cell} {value value' : Nat → Json}
    (hsame : ∀ child ∈ cell.children, value child = value' child) :
    cell.valueWith value = cell.valueWith value' := by
  cases cell with
  | leaf scalar => rfl
  | list items => exact congrArg Json.arr (List.map_congr_left hsame)
  | object entries =>
      refine congrArg Json.obj (List.map_congr_left fun entry hentry => ?_)
      rw [hsame entry.2 (List.mem_map_of_mem hentry)]

theorem find?_map {α β : Type} (f : α → β) (key : Text) (entries : List (Text × α)) :
    Text.find? key (entries.map fun entry => (entry.1, f entry.2)) =
      (Text.find? key entries).map f := by
  induction entries with
  | nil => rfl
  | cons entry rest ih =>
      obtain ⟨k, a⟩ := entry
      rw [List.map_cons, Text.find?_cons, Text.find?_cons, ih]
      split <;> rfl

namespace Document

variable {document document' : Document} {limit node other : Nat}

/-- Add a node behind the others. -/
def push (document : Document) (cell : Cell) : Document :=
  ⟨document.cells.push cell⟩

@[simp] theorem size_push (document : Document) (cell : Cell) :
    (document.push cell).cells.size = document.cells.size + 1 :=
  Array.size_push cell

@[simp] theorem size_put (document : Document) (node : Nat) (cell : Cell) :
    (document.put node cell).cells.size = document.cells.size :=
  Array.size_setIfInBounds

theorem cell_push (document : Document) (cell : Cell) (other : Nat) :
    (document.push cell).cell other =
      if other = document.cells.size then cell else document.cell other := by
  unfold Document.cell push
  rw [Array.getElem?_push]
  split <;> rfl

theorem cell_push_of_lt {cell : Cell} (hother : other < document.cells.size) :
    (document.push cell).cell other = document.cell other := by
  rw [cell_push, if_neg (Nat.ne_of_lt hother)]

theorem cell_put_self {cell : Cell} (hnode : node < document.cells.size) :
    (document.put node cell).cell node = cell := by
  simp [Document.cell, put, hnode]

theorem cell_put_of_ne {cell : Cell} (hother : other ≠ node) :
    (document.put node cell).cell other = document.cell other := by
  simp [Document.cell, put, hother.symm]

theorem put_cell (document : Document) (node : Nat) :
    document.put node (document.cell node) = document := by
  unfold put Document.cell
  congr 1
  ext i hi hi'
  · simp
  · rw [Array.getElem_setIfInBounds]
    split
    next h =>
      subst h
      simp [Array.getElem?_eq_getElem hi']
    next => rfl

theorem cell_of_size_le (hnode : document.cells.size ≤ node) :
    document.cell node = .leaf .null := by
  simp [Document.cell, Array.getElem?_eq_none hnode]

theorem lt_of_mem_children {child : Nat} (hchild : child ∈ (document.cell node).children) :
    node < document.cells.size := by
  by_contra hnode
  rw [cell_of_size_le (Nat.le_of_not_lt hnode)] at hchild
  simp [Cell.children] at hchild

theorem mem_children_of_mem {entries : List (Text × Nat)} {entry : Text × Nat}
    (hcell : document.cell node = .object entries) (hentry : entry ∈ entries) :
    entry.2 ∈ (document.cell node).children := by
  rw [hcell]
  exact List.mem_map_of_mem hentry

/-! ## Values -/

/-- A node stands below another one: the nodes that a document starts with come
after those in them, and a later node stands below each of them. -/
def Under (limit child node : Nat) : Prop :=
  if node < limit then child < node ∨ limit ≤ child else limit ≤ child ∧ child < node

theorem Under.trans {inner child : Nat} (hinner : Under limit inner child)
    (hchild : Under limit child node) : Under limit inner node := by
  unfold Under at *
  split at hchild <;> split at hinner <;> split <;> omega

theorem Under.ne {child : Nat} (hchild : Under limit child node) : child ≠ node := by
  unfold Under at hchild
  split at hchild <;> omega

theorem under_of_made {child : Nat} (hnode : node < limit) (hchild : limit ≤ child) :
    Under limit child node := by
  rw [Under, if_pos hnode]
  exact .inr hchild

/-- The documents that come about: what a node holds stands below it, and a node
that was not there from the beginning is a leaf or holds nothing but a text. -/
structure Sound (limit : Nat) (document : Document) : Prop where
  bound : limit ≤ document.cells.size
  below : ∀ node, ∀ child ∈ (document.cell node).children,
    child < document.cells.size ∧ Under limit child node
  scalar : ∀ node value, document.cell node = .leaf value →
    (∀ items, value ≠ .arr items) ∧ ∀ entries, value ≠ .obj entries
  made : ∀ node, limit ≤ node → (∃ value, document.cell node = .leaf value) ∨
    ∃ child text, document.cell node = .object [("name", child)] ∧
      document.cell child = .leaf (.str text)

/-- How deep a node can be: later nodes first, then those from the beginning. -/
def rank (limit : Nat) (document : Document) (node : Nat) : Nat :=
  if node < limit then node + (document.cells.size - limit) else node - limit

theorem rank_lt_size (hbound : limit ≤ document.cells.size) (hnode : node < document.cells.size) :
    rank limit document node < document.cells.size := by
  unfold rank
  split <;> omega

theorem Sound.rank_lt (hsound : Sound limit document) {child : Nat}
    (hchild : child ∈ (document.cell node).children) :
    rank limit document child < rank limit document node := by
  obtain ⟨hsize, hunder⟩ := hsound.below node child hchild
  have hbound := hsound.bound
  unfold Under at hunder
  unfold rank
  split at hunder <;> split <;> omega

/-- What holds of a node if it holds of all nodes in it holds of every node. -/
theorem Sound.induct (hsound : Sound limit document) {motive : Nat → Prop}
    (hstep : ∀ node, (∀ child ∈ (document.cell node).children, motive child) → motive node)
    (node : Nat) : motive node := by
  induction hrank : rank limit document node using Nat.strong_induction_on generalizing node with
  | _ depth ih =>
      subst hrank
      exact hstep node fun child hchild => ih _ (hsound.rank_lt hchild) child rfl

theorem valueTo_succ (document : Document) (depth node : Nat) :
    document.valueTo (depth + 1) node =
      (document.cell node).valueWith (document.valueTo depth) := by
  rw [valueTo]
  cases document.cell node <;> rfl

theorem Sound.valueTo_eq (hsound : Sound limit document) {depth depth' : Nat}
    (hdepth : rank limit document node < depth) (hdepth' : rank limit document node < depth') :
    document.valueTo depth node = document.valueTo depth' node := by
  induction depth generalizing depth' node with
  | zero => exact absurd hdepth (Nat.not_lt_zero _)
  | succ depth ih =>
      obtain ⟨depth', rfl⟩ := Nat.exists_eq_succ_of_ne_zero (Nat.ne_zero_of_lt hdepth')
      rw [valueTo_succ, valueTo_succ]
      refine Cell.valueWith_congr fun child hchild => ?_
      have hrank := hsound.rank_lt hchild
      exact ih (by omega) (by omega)

/-- A node stands for what the nodes in it make of it. -/
theorem Sound.value_eq (hsound : Sound limit document) (node : Nat) :
    document.value node = (document.cell node).valueWith document.value := by
  unfold Document.value
  by_cases hnode : node < document.cells.size
  · obtain ⟨depth, hdepth⟩ := Nat.exists_eq_succ_of_ne_zero (Nat.ne_zero_of_lt hnode)
    rw [hdepth, valueTo_succ]
    refine Cell.valueWith_congr fun child hchild => ?_
    have hrank := hsound.rank_lt hchild
    have hdeep := rank_lt_size hsound.bound hnode
    exact hsound.valueTo_eq (by omega) (by omega)
  · rw [cell_of_size_le (Nat.le_of_not_lt hnode)]
    cases document.cells.size with
    | zero => rfl
    | succ depth => rw [valueTo_succ, cell_of_size_le (Nat.le_of_not_lt hnode)]; rfl

theorem Sound.value_leaf (hsound : Sound limit document) {value : Json}
    (hcell : document.cell node = .leaf value) : document.value node = value := by
  rw [hsound.value_eq, hcell]
  rfl

theorem Sound.value_list (hsound : Sound limit document) {items : List Nat}
    (hcell : document.cell node = .list items) :
    document.value node = .arr (items.map document.value) := by
  rw [hsound.value_eq, hcell]
  rfl

theorem Sound.value_object (hsound : Sound limit document) {entries : List (Text × Nat)}
    (hcell : document.cell node = .object entries) :
    document.value node =
      .obj (entries.map fun entry => (entry.1, document.value entry.2)) := by
  rw [hsound.value_eq, hcell]
  rfl

theorem Sound.child_value (hsound : Sound limit document) {child : Nat}
    (hchild : child ∈ (document.cell node).children) :
    Json.Child (document.value child) (document.value node) := by
  cases hcell : document.cell node with
  | leaf scalar => simp [hcell, Cell.children] at hchild
  | list items =>
      rw [hcell] at hchild
      rw [hsound.value_list hcell]
      exact .item (List.mem_map_of_mem hchild)
  | object entries =>
      rw [hcell] at hchild
      obtain ⟨entry, hentry, rfl⟩ := List.mem_map.mp hchild
      rw [hsound.value_object hcell]
      have hmem : (entry.1, document.value entry.2) ∈
          entries.map fun entry => (entry.1, document.value entry.2) :=
        List.mem_map_of_mem hentry
      exact .value hmem

/-! ## What a node reaches -/

/-- A node reaches only nodes of a region. -/
inductive Within (document : Document) (region : Set Nat) : Nat → Prop
  | intro {node : Nat} (hnode : node < document.cells.size) (hregion : node ∈ region)
      (hchildren : ∀ child ∈ (document.cell node).children, Within document region child) :
      Within document region node

theorem Within.lt_size {region : Set Nat} (hwithin : document.Within region node) :
    node < document.cells.size := by
  cases hwithin with
  | intro hnode => exact hnode

theorem Within.mem {region : Set Nat} (hwithin : document.Within region node) :
    node ∈ region := by
  cases hwithin with
  | intro _ hregion => exact hregion

theorem Within.child {region : Set Nat} (hwithin : document.Within region node) {child : Nat}
    (hchild : child ∈ (document.cell node).children) : document.Within region child := by
  cases hwithin with
  | intro _ _ hchildren => exact hchildren child hchild

theorem Within.mono {region region' : Set Nat} (hwithin : document.Within region node)
    (hregion : region ⊆ region') : document.Within region' node := by
  induction hwithin with
  | intro hnode hmem _ ih => exact .intro hnode (hregion hmem) ih

theorem Sound.within_compl (hsound : Sound limit document) {child : Nat}
    (hchild : child < document.cells.size) (hunder : Under limit child node) :
    document.Within {node}ᶜ child := by
  induction child using hsound.induct with
  | hstep child ih =>
      refine .intro hchild hunder.ne fun inner hinner => ?_
      obtain ⟨hsize, hbelow⟩ := hsound.below child inner hinner
      exact ih inner hinner hsize (hbelow.trans hunder)

theorem Sound.within_child (hsound : Sound limit document) {child : Nat}
    (hchild : child ∈ (document.cell node).children) : document.Within {node}ᶜ child := by
  have hbelow := hsound.below node child hchild
  exact hsound.within_compl hbelow.1 hbelow.2

theorem Sound.within_univ (hsound : Sound limit document) (hnode : node < document.cells.size) :
    document.Within Set.univ node := by
  induction node using hsound.induct with
  | hstep node ih =>
      exact .intro hnode trivial fun child hchild =>
        ih child hchild (hsound.below node child hchild).1

/-- Two documents have the same nodes in a region. -/
def Agree (region : Set Nat) (document document' : Document) : Prop :=
  document.cells.size ≤ document'.cells.size ∧
    ∀ node < document.cells.size, node ∈ region → document'.cell node = document.cell node

theorem Within.agree {region region' : Set Nat} (hwithin : document.Within region node)
    (hwithin' : document.Within region' node) (hagree : Agree region document document') :
    document'.Within region' node := by
  induction hwithin with
  | intro hnode hmem _ ih =>
      refine .intro (Nat.lt_of_lt_of_le hnode hagree.1) hwithin'.mem fun child hchild => ?_
      rw [hagree.2 _ hnode hmem] at hchild
      exact ih child hchild (hwithin'.child hchild)

theorem Within.value_agree {region : Set Nat} {limit' : Nat}
    (hwithin : document.Within region node) (hsound : Sound limit document)
    (hsound' : Sound limit' document')
    (hagree : Agree region document document') : document'.value node = document.value node := by
  induction hwithin with
  | intro hnode hmem _ ih =>
      rw [hsound.value_eq, hsound'.value_eq, hagree.2 _ hnode hmem]
      exact Cell.valueWith_congr ih

/-! ## Nodes along keys -/

theorem child?_eq_some {key : Text} {child : Nat} :
    document.child? key node = some child ↔
      ∃ entries, document.cell node = .object entries ∧ Text.find? key entries = some child := by
  unfold child?
  split <;> simp_all

theorem mem_children_of_child? {key : Text} {child : Nat}
    (hchild : document.child? key node = some child) :
    child ∈ (document.cell node).children := by
  obtain ⟨entries, hcell, hfound⟩ := child?_eq_some.mp hchild
  rw [hcell]
  exact List.mem_map.mpr ⟨(key, child), Json.mem_of_find? hfound, rfl⟩

/-- What is found in an object is the value of a node in it. -/
theorem Sound.exists_child? (hsound : Sound limit document) {key : Text} {value : Json}
    {values : List (Text × Json)} (hvalue : document.value node = .obj values)
    (hfound : Text.find? key values = some value) :
    ∃ child, document.child? key node = some child ∧ document.value child = value := by
  cases hcell : document.cell node with
  | leaf scalar =>
      rw [hsound.value_leaf hcell] at hvalue
      exact absurd hvalue ((hsound.scalar node scalar hcell).2 values)
  | list items =>
      rw [hsound.value_list hcell] at hvalue
      cases hvalue
  | object entries =>
      rw [hsound.value_object hcell] at hvalue
      obtain rfl := Json.obj.inj hvalue
      rw [find?_map] at hfound
      obtain ⟨child, hchild, hsame⟩ := Option.map_eq_some_iff.mp hfound
      exact ⟨child, child?_eq_some.mpr ⟨entries, hcell, hchild⟩, hsame⟩

theorem Sound.value_of_child? (hsound : Sound limit document) {key : Text} {child : Nat}
    (hchild : document.child? key node = some child) :
    ∃ values, document.value node = .obj values ∧
      Text.find? key values = some (document.value child) := by
  obtain ⟨entries, hcell, hfound⟩ := child?_eq_some.mp hchild
  refine ⟨_, hsound.value_object hcell, ?_⟩
  rw [find?_map, hfound]
  rfl

/-- The node that keys lead to. -/
def follow? (document : Document) : List Text → Nat → Option Nat
  | [], node => some node
  | key :: keys, node => (document.child? key node).bind (document.follow? keys)

theorem follow?_cons {key : Text} {keys : List Text} {last : Nat} :
    document.follow? (key :: keys) node = some last ↔
      ∃ child, document.child? key node = some child ∧ document.follow? keys child = some last :=
  Option.bind_eq_some_iff

theorem Within.follow? {region : Set Nat} {keys : List Text} {last : Nat}
    (hwithin : document.Within region node) (hlast : document.follow? keys node = some last) :
    document.Within region last := by
  induction keys generalizing node with
  | nil =>
      obtain rfl := Option.some.inj hlast
      exact hwithin
  | cons key keys ih =>
      obtain ⟨child, hchild, hlast⟩ := follow?_cons.mp hlast
      exact ih (hwithin.child (mem_children_of_child? hchild)) hlast

theorem Sound.under_of_follow? (hsound : Sound limit document) {keys : List Text} {last : Nat}
    (hunder : Under limit node other) (hlast : document.follow? keys node = some last) :
    Under limit last other := by
  induction keys generalizing node with
  | nil =>
      obtain rfl := Option.some.inj hlast
      exact hunder
  | cons key keys ih =>
      obtain ⟨child, hchild, hlast⟩ := follow?_cons.mp hlast
      exact ih ((hsound.below node child (mem_children_of_child? hchild)).2.trans hunder) hlast

theorem Sound.under_of_follow?_cons (hsound : Sound limit document) {key : Text}
    {keys : List Text} {last : Nat} (hlast : document.follow? (key :: keys) node = some last) :
    Under limit last node := by
  obtain ⟨child, hchild, hrest⟩ := follow?_cons.mp hlast
  exact hsound.under_of_follow? (hsound.below node child (mem_children_of_child? hchild)).2 hrest

theorem Within.child?_agree {region : Set Nat} (hwithin : document.Within region node)
    (hagree : Agree region document document') (key : Text) :
    document'.child? key node = document.child? key node := by
  unfold child?
  rw [hagree.2 _ hwithin.lt_size hwithin.mem]

theorem Within.follow?_agree {region : Set Nat} (hwithin : document.Within region node)
    (hagree : Agree region document document') (keys : List Text) :
    document'.follow? keys node = document.follow? keys node := by
  induction keys generalizing node with
  | nil => rfl
  | cons key keys ih =>
      unfold Document.follow?
      rw [hwithin.child?_agree hagree]
      cases hchild : document.child? key node with
      | none => rfl
      | some child => exact ih (hwithin.child (mem_children_of_child? hchild))

/-! ## Changing a document -/

theorem agree_push (document : Document) (cell : Cell) :
    Agree Set.univ document (document.push cell) :=
  ⟨by simp, fun _ hnode _ => cell_push_of_lt hnode⟩

theorem agree_put (document : Document) (node : Nat) (cell : Cell) :
    Agree {node}ᶜ document (document.put node cell) :=
  ⟨by simp, fun _ _ hother => cell_put_of_ne hother⟩

theorem Agree.mono {region region' : Set Nat} (hagree : Agree region' document document')
    (hregion : region ⊆ region') : Agree region document document' :=
  ⟨hagree.1, fun node hnode hmem => hagree.2 node hnode (hregion hmem)⟩

theorem Agree.trans {region : Set Nat} {document'' : Document}
    (hagree : Agree region document document') (hagree' : Agree region document' document'') :
    Agree region document document'' :=
  ⟨hagree.1.trans hagree'.1, fun node hnode hmem =>
    (hagree'.2 node (Nat.lt_of_lt_of_le hnode hagree.1) hmem).trans (hagree.2 node hnode hmem)⟩

theorem Sound.push_leaf (hsound : Sound limit document) (text : Text) :
    Sound limit (document.push (.leaf (.str text))) where
  bound := by
    have := hsound.bound
    simp only [size_push]
    omega
  below node child hchild := by
    rw [cell_push] at hchild
    split at hchild
    next => simp [Cell.children] at hchild
    next =>
      obtain ⟨hsize, hunder⟩ := hsound.below node child hchild
      exact ⟨by simp only [size_push]; omega, hunder⟩
  scalar node value hcell := by
    rw [cell_push] at hcell
    split at hcell
    next =>
      obtain rfl : Json.str text = value := by simpa using hcell
      simp
    next => exact hsound.scalar node value hcell
  made node hnode := by
    rw [cell_push]
    split
    next => exact .inl ⟨_, rfl⟩
    next =>
      obtain hleaf | ⟨child, name, hcell, hchild⟩ := hsound.made node hnode
      · exact .inl hleaf
      · refine .inr ⟨child, name, hcell, ?_⟩
        have hsize := (hsound.below node child (by simp [hcell, Cell.children])).1
        rw [cell_push_of_lt hsize, hchild]

theorem Sound.push_nameOnly (hsound : Sound limit document) {child : Nat} {text : Text}
    (hlimit : limit ≤ child) (hsize : child < document.cells.size)
    (hcell : document.cell child = .leaf (.str text)) :
    Sound limit (document.push (.object [("name", child)])) where
  bound := by
    have := hsound.bound
    simp only [size_push]
    omega
  below node inner hinner := by
    rw [cell_push] at hinner
    split at hinner
    next hnode =>
      obtain rfl : inner = child := by simpa [Cell.children] using hinner
      refine ⟨by simp only [size_push]; omega, ?_⟩
      unfold Under
      split <;> omega
    next =>
      obtain ⟨hsize, hunder⟩ := hsound.below node inner hinner
      exact ⟨by simp only [size_push]; omega, hunder⟩
  scalar node value hleaf := by
    rw [cell_push] at hleaf
    split at hleaf
    next => cases hleaf
    next => exact hsound.scalar node value hleaf
  made node hnode := by
    rw [cell_push]
    split
    next => exact .inr ⟨child, text, rfl, by rw [cell_push_of_lt hsize, hcell]⟩
    next =>
      obtain hleaf | ⟨inner, name, hobject, hinner⟩ := hsound.made node hnode
      · exact .inl hleaf
      · refine .inr ⟨inner, name, hobject, ?_⟩
        have hsize := (hsound.below node inner (by simp [hobject, Cell.children])).1
        rw [cell_push_of_lt hsize, hinner]

/-- A document of which all nodes are from the beginning may be continued. -/
theorem Sound.push_cell (hsound : Sound document.cells.size document) {cell : Cell}
    (hchildren : ∀ child ∈ cell.children, child < document.cells.size)
    (hscalar : ∀ value, cell = .leaf value →
      (∀ items, value ≠ .arr items) ∧ ∀ entries, value ≠ .obj entries) :
    Sound (document.push cell).cells.size (document.push cell) where
  bound := Nat.le_refl _
  below node child hchild := by
    have hnode := lt_of_mem_children hchild
    rw [cell_push] at hchild
    simp only [size_push] at hnode ⊢
    have hlt : child < node := by
      split at hchild
      next heq => exact heq ▸ hchildren child hchild
      next =>
        obtain ⟨hsize, hunder⟩ := hsound.below node child hchild
        unfold Under at hunder
        split at hunder <;> omega
    refine ⟨by omega, ?_⟩
    unfold Under
    split <;> omega
  scalar node value hcell := by
    rw [cell_push] at hcell
    split at hcell
    next => exact hscalar value hcell
    next => exact hsound.scalar node value hcell
  made node hnode := .inl ⟨.null, cell_of_size_le hnode⟩

/-- A node from the beginning may be replaced by a list or an object of what
stands below it. -/
theorem Sound.put (hsound : Sound limit document) (hnode : node < limit) {cell : Cell}
    (hcell : ∀ value, cell ≠ .leaf value)
    (hbelow : ∀ child ∈ cell.children, child < document.cells.size ∧ Under limit child node) :
    Sound limit (document.put node cell) where
  bound := by simpa using hsound.bound
  below other child hchild := by
    rw [size_put]
    by_cases hother : other = node
    · subst hother
      rw [cell_put_self (Nat.lt_of_lt_of_le hnode hsound.bound)] at hchild
      exact hbelow child hchild
    · rw [cell_put_of_ne hother] at hchild
      exact hsound.below other child hchild
  scalar other value hleaf := by
    by_cases hother : other = node
    · subst hother
      rw [cell_put_self (Nat.lt_of_lt_of_le hnode hsound.bound)] at hleaf
      exact absurd hleaf (hcell value)
    · rw [cell_put_of_ne hother] at hleaf
      exact hsound.scalar other value hleaf
  made other hother := by
    rw [cell_put_of_ne (by omega)]
    obtain hleaf | ⟨child, text, hobject, hchild⟩ := hsound.made other hother
    · exact .inl hleaf
    · refine .inr ⟨child, text, hobject, ?_⟩
      have hunder := (hsound.below other child (by simp [hobject, Cell.children])).2
      unfold Under at hunder
      rw [cell_put_of_ne (by split at hunder <;> omega), hchild]

/-- A change of one node that keeps its value changes no value. -/
theorem Sound.value_of_agree (hsound : Sound limit document) (hsound' : Sound limit document')
    (hagree : Agree {node}ᶜ document document')
    (hvalue : document'.value node = document.value node)
    (hother : other < document.cells.size) : document'.value other = document.value other := by
  induction other using hsound.induct with
  | hstep other ih =>
      by_cases hnode : other = node
      · rw [hnode, hvalue]
      · rw [hsound.value_eq, hsound'.value_eq, hagree.2 other hother hnode]
        exact Cell.valueWith_congr fun child hchild =>
          ih child hchild (hsound.below other child hchild).1

theorem Within.of_agree {region : Set Nat} (hwithin : document.Within region other)
    (hagree : Agree {node}ᶜ document document')
    (hnode : document.Within region node → document'.Within region node) :
    document'.Within region other := by
  induction hwithin with
  | @intro other hother hmem hchildren ih =>
      by_cases heq : other = node
      · subst heq
        exact hnode (.intro hother hmem hchildren)
      · refine .intro (Nat.lt_of_lt_of_le hother hagree.1) hmem fun child hchild => ?_
        rw [hagree.2 other hother heq] at hchild
        exact ih child hchild

/-- A node that was made later reaches only such nodes. -/
theorem Sound.within_made (hsound : Sound limit document) (hlimit : limit ≤ node)
    (hnode : node < document.cells.size) : document.Within (Set.Ici limit) node := by
  induction node using hsound.induct with
  | hstep node ih =>
      refine .intro hnode hlimit fun child hchild => ?_
      obtain ⟨hsize, hunder⟩ := hsound.below node child hchild
      unfold Under at hunder
      exact ih child hchild (by split at hunder <;> omega) hsize

end Document
end ApiBindings
