import ApiBindings.Schema.Expression
import Mathlib.Data.List.Sort
/-!
# Types up to the order of their unions

The members of a union have no order that matters.  Two types that differ in nothing else,
however deep the unions lie, have one canonical expression: the texts of the members are
sorted, and a list of texts can be sorted in one way only, since two different texts never
come before each other.
-/

namespace ApiBindings

/-! ## The order of texts -/

namespace Code

theorem value_injective {a b : Code} (hsame : a.value = b.value) : a = b := by
  cases a with
  | char c =>
      cases b with
      | char d => exact congrArg Code.char (Char.toNat_inj.mp hsame)
      | surrogate offset =>
          -- No character has the number of a surrogate.
          have hvalid := c.valid
          have hnumber : c.val.toNat = 0xD800 + offset.val := hsame
          have hbound := offset.isLt
          simp only [UInt32.isValidChar, Nat.isValidChar] at hvalid
          omega
  | surrogate offset =>
      cases b with
      | char d =>
          have hvalid := d.valid
          have hnumber : 0xD800 + offset.val = d.val.toNat := hsame
          have hbound := offset.isLt
          simp only [UInt32.isValidChar, Nat.isValidChar] at hvalid
          omega
      | surrogate other =>
          have hoffset : offset.val = other.val := Nat.add_left_cancel hsame
          exact congrArg Code.surrogate (Fin.ext hoffset)

end Code

namespace Text

theorem le_cons_iff {a b : Code} {as bs : Text} :
    le (a :: as) (b :: bs) = true ↔ a.value < b.value ∨ a = b ∧ le as bs = true := by
  have hsame : a.value = b.value ↔ a = b := ⟨Code.value_injective, congrArg Code.value⟩
  simp [le, hsame]

theorem le_trans {a b c : Text} (hab : le a b = true) (hbc : le b c = true) :
    le a c = true := by
  induction a generalizing b c with
  | nil => rfl
  | cons x xs ih =>
      cases b with
      | nil => exact nomatch hab
      | cons y ys =>
          cases c with
          | nil => exact nomatch hbc
          | cons z zs =>
              rw [le_cons_iff] at hab hbc ⊢
              rcases hab with hxy | ⟨rfl, hxy⟩
              · rcases hbc with hyz | ⟨rfl, -⟩
                · exact .inl (Nat.lt_trans hxy hyz)
                · exact .inl hxy
              · rcases hbc with hyz | ⟨rfl, hyz⟩
                · exact .inl hyz
                · exact .inr ⟨rfl, ih hxy hyz⟩

theorem le_total (a b : Text) : (le a b || le b a) = true := by
  induction a generalizing b with
  | nil => rfl
  | cons x xs ih =>
      cases b with
      | nil => rfl
      | cons y ys =>
          rw [Bool.or_eq_true, le_cons_iff, le_cons_iff]
          rcases Nat.lt_trichotomy x.value y.value with hlt | heq | hgt
          · exact .inl (.inl hlt)
          · have hsame := Code.value_injective heq
            subst hsame
            have hrest := Bool.or_eq_true _ _ |>.mp (ih ys)
            exact hrest.imp (fun h => .inr ⟨rfl, h⟩) fun h => .inr ⟨rfl, h⟩
          · exact .inr (.inl hgt)

theorem le_antisymm {a b : Text} (hab : le a b = true) (hba : le b a = true) : a = b := by
  induction a generalizing b with
  | nil =>
      cases b with
      | nil => rfl
      | cons y ys => exact nomatch hba
  | cons x xs ih =>
      cases b with
      | nil => exact nomatch hab
      | cons y ys =>
          rw [le_cons_iff] at hab hba
          rcases hab with hlt | ⟨rfl, hxy⟩
          · rcases hba with hgt | ⟨rfl, -⟩
            · exact absurd hgt (Nat.lt_asymm hlt)
            · exact absurd hlt (Nat.lt_irrefl _)
          · rcases hba with hlt | ⟨-, hyx⟩
            · exact absurd hlt (Nat.lt_irrefl _)
            · rw [ih hxy hyx]

/-- Texts in any order are sorted into one and the same list. -/
theorem mergeSort_eq_of_perm {as bs : List Text} (hperm : as.Perm bs) :
    as.mergeSort le = bs.mergeSort le := by
  have hsorted : ∀ texts : List Text, (texts.mergeSort le).Pairwise fun a b => le a b = true :=
    List.pairwise_mergeSort (fun _ _ _ => le_trans) le_total
  have hsame : (as.mergeSort le).Perm (bs.mergeSort le) :=
    (List.mergeSort_perm as le).trans (hperm.trans (List.mergeSort_perm bs le).symm)
  exact hsame.eq_of_pairwise (fun _ _ _ _ => le_antisymm) (hsorted as) (hsorted bs)

end Text

namespace TypeNode

mutual

/-- Two types differ only in the order of the members of unions, at any depth. -/
inductive Reordered : TypeNode → TypeNode → Prop
  | primitive (name path : Text) : Reordered (.primitive name path) (.primitive name path)
  | array {path : Text} {element element' : TypeNode} (helement : Reordered element element') :
    Reordered (.array path element) (.array path element')
  | map {name path : Text} {key key' value value' : TypeNode} (hkey : Reordered key key')
      (hvalue : Reordered value value') :
    Reordered (.map name path key value) (.map name path key' value')
  | union {name path : Text} {members permuted members' : List TypeNode}
      (hperm : members.Perm permuted) (hmembers : List.Forall₂ Reordered permuted members') :
    Reordered (.union name path members) (.union name path members')
  | generic {name path : Text} {args args' : List TypeNode}
      (hargs : List.Forall₂ Reordered args args') :
    Reordered (.generic name path args) (.generic name path args')
  | bareFunction {path : Text} {result result' : Option TypeNode}
      (hresult : Option.Rel Reordered result result') :
    Reordered (.bareFunction path result) (.bareFunction path result')
  | function {path : Text} {args args' : List TypeNode} {result result' : Option TypeNode}
      (hargs : List.Forall₂ Reordered args args')
      (hresult : Option.Rel Reordered result result') :
    Reordered (.function path args result) (.function path args' result')
  | record {path : Text} {properties properties' : List (Slot TypeNode)}
      (hproperties : List.Forall₂ ReorderedSlot properties properties') :
    Reordered (.record path properties) (.record path properties')

/-- Two properties differ only in their types, and those in the order of unions. -/
inductive ReorderedSlot : Slot TypeNode → Slot TypeNode → Prop
  | mk (name path : Text) {type type' : TypeNode} (required : Bool) (comment : Json)
      (htype : Reordered type type') :
    ReorderedSlot ⟨name, path, type, required, comment⟩ ⟨name, path, type', required, comment⟩

end

theorem expressions_eq_map (nodes : List TypeNode) : expressions nodes = nodes.map expression := by
  induction nodes with
  | nil => rfl
  | cons node rest ih => rw [expressions, ih, List.map_cons]

/-- The types of these have the expressions of whatever they are reordered to. -/
def OrderFree (nodes : List TypeNode) : Prop :=
  ∀ node ∈ nodes, ∀ other, Reordered node other → node.expression = other.expression

theorem OrderFree.expressions_eq {nodes others : List TypeNode} (hnodes : OrderFree nodes)
    (hreordered : List.Forall₂ Reordered nodes others) :
    expressions nodes = expressions others := by
  induction hreordered with
  | nil => rfl
  | @cons node other nodes others hnode _ ih =>
      obtain ⟨hfirst, hrest⟩ := List.forall_mem_cons.mp hnodes
      rw [expressions, expressions, hfirst other hnode, ih hrest]

theorem OrderFree.unionExpression_eq {name : Text} {members permuted members' : List TypeNode}
    (hmembers : OrderFree members) (hperm : members.Perm permuted)
    (hreordered : List.Forall₂ Reordered permuted members') :
    unionExpression name (expressions members) = unionExpression name (expressions members') := by
  have hpermuted : OrderFree permuted := fun node hnode => hmembers node (hperm.mem_iff.mpr hnode)
  have hsorted : (expressions members).mergeSort Text.le =
      (expressions members').mergeSort Text.le := by
    rw [← hpermuted.expressions_eq hreordered, expressions_eq_map, expressions_eq_map]
    exact Text.mergeSort_eq_of_perm (hperm.map expression)
  rw [unionExpression, unionExpression, hsorted]

mutual

theorem expression_orderFree (node : TypeNode) :
    ∀ other, Reordered node other → node.expression = other.expression := by
  intro other hreordered
  cases node with
  | primitive name path =>
      cases hreordered
      rfl
  | array path element =>
      cases hreordered with
      | array helement =>
          rw [expression, expression, expression_orderFree element _ helement]
  | map name path key value =>
      cases hreordered with
      | map hkey hvalue =>
          rw [expression, expression, expression_orderFree key _ hkey,
            expression_orderFree value _ hvalue]
  | union name path members =>
      cases hreordered with
      | union hperm hmembers =>
          rw [expression, expression]
          exact (orderFree members).unionExpression_eq hperm hmembers
  | generic name path args =>
      cases hreordered with
      | generic hargs =>
          rw [expression, expression, (orderFree args).expressions_eq hargs]
  | bareFunction path result =>
      cases hreordered
      rfl
  | function path args result =>
      cases hreordered with
      | function hargs hresult =>
          have hsame := (orderFree args).expressions_eq hargs
          cases hresult with
          | none => rw [expression, expression, hsame]
          | some hresult =>
              rw [expression, expression, hsame, expression_orderFree _ _ hresult]
  | record path properties =>
      cases hreordered
      rfl
termination_by structural node

theorem orderFree (nodes : List TypeNode) : OrderFree nodes := by
  cases nodes with
  | nil => simp [OrderFree]
  | cons node rest =>
      exact List.forall_mem_cons.mpr ⟨expression_orderFree node, orderFree rest⟩
termination_by structural nodes

end

end TypeNode
end ApiBindings
