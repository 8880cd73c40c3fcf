import ApiBindings.Proofs.Json.Same
import Mathlib.Logic.Relation
/-!
# Values inside values

The values that stand inside a value, at any depth, are smaller than it.
-/

namespace ApiBindings

/-- A value stands right inside another one. -/
inductive Json.Child : Json → Json → Prop
  | item {items : List Json} {item : Json} (hmem : item ∈ items) : Child item (.arr items)
  | value {entries : List (Text × Json)} {entry : Text × Json} (hmem : entry ∈ entries) :
    Child entry.2 (.obj entries)

/-- A value stands inside another one, at any depth. -/
def Json.Below : Json → Json → Prop :=
  Relation.TransGen Json.Child

theorem Json.Child.sizeOf_lt {inner outer : Json} (hchild : Json.Child inner outer) :
    sizeOf inner < sizeOf outer := by
  cases hchild with
  | item hmem =>
      have hlt := List.sizeOf_lt_of_mem hmem
      simp only [Json.arr.sizeOf_spec]
      omega
  | @value entries entry hmem =>
      have hlt := List.sizeOf_lt_of_mem hmem
      obtain ⟨key, value⟩ := entry
      simp only [Prod.mk.sizeOf_spec, Json.obj.sizeOf_spec] at hlt ⊢
      omega

theorem Json.wellFounded_below : WellFounded Json.Below := by
  have hchild : WellFounded Json.Child :=
    Subrelation.wf Json.Child.sizeOf_lt (measure (sizeOf : Json → Nat)).wf
  exact hchild.transGen

theorem Json.properItems_iff {items : List Json} :
    Json.ProperItems items ↔ ∀ item ∈ items, item.Proper := by
  induction items with
  | nil => simp [ProperItems]
  | cons item rest ih => rw [ProperItems, ih, List.forall_mem_cons]

theorem Json.properEntries_iff {entries : List (Text × Json)} :
    Json.ProperEntries entries ↔ ∀ entry ∈ entries, entry.2.Proper := by
  induction entries with
  | nil => simp [ProperEntries]
  | cons entry rest ih => rw [ProperEntries, ih, List.forall_mem_cons]

theorem Json.Proper.below {inner outer : Json} (hproper : outer.Proper)
    (hbelow : Json.Below inner outer) : inner.Proper := by
  have hchild : ∀ {inner outer : Json}, Json.Child inner outer → outer.Proper → inner.Proper := by
    rintro _ _ (hmem | hmem) hproper <;> rw [Proper] at hproper
    · exact properItems_iff.mp hproper _ hmem
    · exact hproper.2.of_mem hmem
  induction hbelow using Relation.TransGen.head_induction_on with
  | single hinner => exact hchild hinner hproper
  | head hinner _ ih => exact hchild hinner ih

end ApiBindings
