import ApiBindings.Proofs.Json.Same
import Mathlib.Data.List.Forall2
/-!
# Agreement of classes

Two classes agree if their fields do, one after the other.  Agreement is
transitive, and it is reflexive and symmetric as long as the names of the types
are proper values.
-/

namespace ApiBindings

theorem Json.isKey_of_same {v w : Json} (hsame : v.same w = true) : v.isKey = w.isKey := by
  cases v <;> cases w <;> simp_all [Json.same, Json.isKey, Json.asInt?]

theorem Json.proper_of_isKey {v : Json} (hkey : v.isKey = true) : v.Proper := by
  cases v <;> simp_all [Json.isKey, Json.Proper]

/-- Values that are the same are the same as the same values. -/
theorem Json.same_congr {v w : Json} (hkey : v.isKey = true) (hsame : v.same w = true)
    (u : Json) : u.same v = u.same w := by
  have hkey' : w.isKey = true := Json.isKey_of_same hsame ▸ hkey
  have hsame' : w.same v = true :=
    Json.same_symm v w (Json.proper_of_isKey hkey) (Json.proper_of_isKey hkey') hsame
  rw [Bool.eq_iff_iff]
  exact ⟨fun h => Json.same_trans _ v w h hsame, fun h => Json.same_trans _ w v h hsame'⟩

/-- Names that are the same name the same type. -/
theorem Catalogue.global?_congr {v w : Json} (catalogue : Catalogue)
    (hkey : v.isKey = true) (hsame : v.same w = true) :
    catalogue.global? v = catalogue.global? w := by
  simp only [Catalogue.global?, Json.same_congr hkey hsame]

theorem Catalogue.local?_congr {v w : Json} (catalogue : Catalogue) (owner : Text)
    (hkey : v.isKey = true) (hsame : v.same w = true) :
    catalogue.local? owner v = catalogue.local? owner w := by
  simp only [Catalogue.local?, Json.same_congr hkey hsame]

/-! ## Fields -/

theorem FieldSignature.agrees_iff {a b : FieldSignature} :
    a.agrees b = true ↔ a.name = b.name ∧ a.required = b.required ∧
      a.typeName.same b.typeName = true ∧ a.isNullable = b.isNullable := by
  simp [FieldSignature.agrees, and_assoc]

theorem FieldSignature.agrees_symm {a b : FieldSignature} (ha : a.typeName.Proper)
    (hb : b.typeName.Proper) (hagrees : a.agrees b = true) : b.agrees a = true := by
  obtain ⟨hname, hrequired, hsame, hnullable⟩ := agrees_iff.mp hagrees
  exact agrees_iff.mpr
    ⟨hname.symm, hrequired.symm, Json.same_symm _ _ ha hb hsame, hnullable.symm⟩

theorem FieldSignature.agrees_trans {a b c : FieldSignature} (hab : a.agrees b = true)
    (hbc : b.agrees c = true) : a.agrees c = true := by
  obtain ⟨hname, hrequired, hsame, hnullable⟩ := agrees_iff.mp hab
  obtain ⟨hname', hrequired', hsame', hnullable'⟩ := agrees_iff.mp hbc
  exact agrees_iff.mpr ⟨hname.trans hname', hrequired.trans hrequired',
    Json.same_trans _ _ _ hsame hsame', hnullable.trans hnullable'⟩

/-! ## Classes -/

theorem ClassType.agrees_iff {a b : ClassType} :
    a.agrees b = true ↔
      List.Forall₂ (fun f g => f.signature.agrees g.signature = true)
        a.fields b.fields := by
  have hfields : ∀ fs gs : List Field,
      (fs.length = gs.length ∧ ((fs.map Field.signature).zip
          (gs.map Field.signature)).all (fun p => p.1.agrees p.2) = true) ↔
        List.Forall₂ (fun f g => f.signature.agrees g.signature = true) fs gs := by
    intro fs
    induction fs with
    | nil => intro gs; cases gs <;> simp
    | cons f fs ih =>
        intro gs
        cases gs with
        | nil => simp
        | cons g gs =>
            rw [List.forall₂_cons, ← ih gs]
            simp only [List.length_cons, List.map_cons, List.zip_cons_cons,
              List.all_cons, Bool.and_eq_true, Nat.add_right_cancel_iff]
            exact and_left_comm
  rw [← hfields]
  simp [ClassType.agrees, ClassType.signature]

/-- The names of the types of the fields are proper values. -/
def ClassType.ProperNames (type : ClassType) : Prop :=
  ∀ field ∈ type.fields, field.signature.typeName.Proper

theorem ClassType.agrees_refl {type : ClassType} (hproper : type.ProperNames) :
    type.agrees type = true :=
  ClassType.agrees_iff.mpr <| List.forall₂_same.mpr fun field hfield =>
    FieldSignature.agrees_iff.mpr
      ⟨rfl, rfl, Json.same_refl _ (hproper field hfield), rfl⟩

theorem ClassType.agrees_symm {a b : ClassType} (ha : a.ProperNames) (hb : b.ProperNames)
    (hagrees : a.agrees b = true) : b.agrees a = true := by
  rw [ClassType.agrees_iff] at hagrees ⊢
  unfold ClassType.ProperNames at ha hb
  generalize a.fields = fs at ha hagrees ⊢
  generalize b.fields = gs at hb hagrees ⊢
  induction hagrees with
  | nil => exact .nil
  | cons h _ ih =>
      rw [List.forall_mem_cons] at ha hb
      exact .cons (FieldSignature.agrees_symm ha.1 hb.1 h) (ih ha.2 hb.2)

theorem ClassType.agrees_trans {a b c : ClassType} (hab : a.agrees b = true)
    (hbc : b.agrees c = true) : a.agrees c = true := by
  rw [ClassType.agrees_iff] at hab hbc ⊢
  generalize a.fields = fs at hab ⊢
  generalize c.fields = hs at hbc ⊢
  generalize b.fields = gs at hab hbc
  induction hab generalizing hs with
  | nil => exact hbc
  | cons h _ ih =>
      cases hbc with
      | cons h' hrest => exact .cons (FieldSignature.agrees_trans h h') (ih _ hrest)

end ApiBindings
