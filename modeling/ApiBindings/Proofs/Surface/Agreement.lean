import ApiBindings.Proofs.Resolution.Simulation
import ApiBindings.Proofs.Surface.Class
/-!
# Declarations of agreeing classes

If one of two agreeing classes can be declared so can the other one, and their
fields have the same types.  The names of types that admit null even have to be
equal, since they become part of a text.
-/

namespace ApiBindings

open Surface

variable {settings : Settings}

/-- Types of agreeing fields that admit null have one name. -/
theorem names_eq_of_nullable {name : Text} {r r' : TypeRef}
    (hnames : settings.Names name r.name) (hnames' : settings.Names name r'.name)
    (hsame : r.name.same r'.name = true) : r.name = r'.name := by
  obtain ⟨-, ⟨text, htext⟩ | hclass⟩ := hnames
  · rw [htext] at hsame ⊢
    exact (Json.same_str_left.mp hsame).symm
  · obtain ⟨-, ⟨text, htext⟩ | hclass'⟩ := hnames'
    · rw [htext] at hsame ⊢
      exact Json.same_str_right.mp hsame
    · exact Except.ok.inj (hclass.symm.trans hclass')

theorem box_eq_self {type boxed : Json} (htext : ∀ text, type ≠ .str text)
    (hbox : Java.box type = .ok boxed) : boxed = type := by
  cases type <;> simp_all [Java.box, Json.isKey]

theorem box_of_isKey {type : Json} (htext : ∀ text, type ≠ .str text)
    (hkey : type.isKey = true) : Java.box type = .ok type := by
  cases type <;> simp_all [Java.box, Json.isKey]

theorem same_of_box {type type' boxed : Json} (hsame : type.same type' = true)
    (hbox : Java.box type = .ok boxed) :
    ∃ boxed', Java.box type' = .ok boxed' ∧ boxed.same boxed' = true := by
  by_cases htext : ∃ text, type = .str text
  · obtain ⟨text, rfl⟩ := htext
    obtain rfl := Json.same_str_left.mp hsame
    obtain rfl : .str (Java.boxText text) = boxed := by simpa [Java.box] using hbox
    exact ⟨_, hbox, by simp [Json.same]⟩
  · have htext' : ¬∃ text, type' = .str text := by
      rintro ⟨text, rfl⟩
      exact htext ⟨text, Json.same_str_right.mp hsame⟩
    rw [not_exists] at htext htext'
    have hkey : type'.isKey = true := Json.isKey_of_same hsame ▸ isKey_of_box hbox
    obtain rfl := box_eq_self htext hbox
    exact ⟨type', box_of_isKey htext' hkey, hsame⟩

/-- Agreeing fields can both be declared, and with the same type. -/
theorem fieldType_of_agrees {f g : Field} {r r' : TypeRef} {type : Json}
    (hf : f.type = some r) (hg : g.type = some r') (hr : settings.Types f.name r)
    (hr' : settings.Types g.name r') (hagrees : f.signature.agrees g.signature = true)
    (htype : fieldType f = .ok type) :
    ∃ type', fieldType g = .ok type' ∧ type.same type' = true := by
  obtain ⟨hname, hrequired, hsame, hnullable⟩ := FieldSignature.agrees_iff.mp hagrees
  dsimp only [Field.signature] at hname hrequired
  simp only [Field.signature, hf, hg, Option.map_some, Option.getD_some] at hsame hnullable
  unfold fieldType at htype ⊢
  simp only [fieldRef, hf, hg, Option.getD_some] at htype ⊢
  cases hnull : r.isNullable with
  | true =>
      have hnull' : r'.isNullable = true := hnullable ▸ hnull
      have heq := names_eq_of_nullable (hr.nullable hnull) (hname ▸ hr'.nullable hnull') hsame
      rw [hnull, heq, hrequired] at htype
      rw [hnull']
      refine ⟨type, htype, ?_⟩
      have htext : ∃ text, type = .str text := by
        cases hoptional : Java.optionalOf r'.name with
        | error failure => simp [hoptional, bind, Except.bind] at htype
        | ok spelling =>
            simp only [hoptional, if_true, bind, Except.bind, pure, Except.pure] at htype
            exact ⟨_, (Except.ok.inj htype).symm⟩
      obtain ⟨text, rfl⟩ := htext
      simp [Json.same]
  | false =>
      have hnull' : r'.isNullable = false := hnullable ▸ hnull
      simp only [hnull, hnull', Bool.false_eq_true, if_false, bind, Except.bind,
        hrequired] at htype ⊢
      cases hg : g.required with
      | true =>
          rw [hg] at htype
          obtain rfl : r.name = type := by simpa [pure, Except.pure] using htype
          exact ⟨r'.name, rfl, hsame⟩
      | false =>
          rw [hg] at htype
          exact same_of_box hsame htype

/-- Fields of the same names and the same types. -/
def Surface.Class.SameFields (c d : Surface.Class) : Prop :=
  c.name.same d.name = true ∧
    List.Forall₂ (fun p q => p.name = q.name ∧ p.type.same q.type = true) c.fields d.fields

theorem declareFields_of_agrees {comment : Field → Json} {fs gs : List Field}
    {ps : List Param}
    (hagrees : List.Forall₂ (fun f g => f.signature.agrees g.signature = true) fs gs)
    (hfs : ∀ f ∈ fs, ∃ r, f.type = some r ∧ settings.Types f.name r)
    (hgs : ∀ g ∈ gs, ∃ r, g.type = some r ∧ settings.Types g.name r)
    (hps : declareFields comment fs = .ok ps) :
    ∃ qs, declareFields comment gs = .ok qs ∧
      List.Forall₂ (fun p q => p.name = q.name ∧ p.type.same q.type = true) ps qs := by
  induction hagrees generalizing ps with
  | nil =>
      obtain rfl : [] = ps := by simpa [declareFields] using hps
      exact ⟨[], rfl, .nil⟩
  | @cons f g fs gs h _ ih =>
      obtain ⟨type, others, htype, hothers, rfl⟩ := declareFields_cons_ok hps
      obtain ⟨⟨r, hr, htypes⟩, hfs⟩ := List.forall_mem_cons.mp hfs
      obtain ⟨⟨r', hr', htypes'⟩, hgs⟩ := List.forall_mem_cons.mp hgs
      obtain ⟨type', htype', hsame⟩ := fieldType_of_agrees hr hr' htypes htypes' h htype
      obtain ⟨others', hothers', hrest⟩ := ih hfs hgs hothers
      refine ⟨⟨g.name, type', comment g⟩ :: others', ?_, .cons ⟨?_, hsame⟩ hrest⟩
      · rw [declareFields, htype', hothers']
        rfl
      · exact (FieldSignature.agrees_iff.mp h).1

theorem exists_fieldType_of_agrees {catalogue : Catalogue} {a b : ClassType}
    {c : Surface.Class}
    (hagrees : a.agrees b = true) (ha : a.Lawful settings) (hb : b.Lawful settings)
    (hc : Class.of catalogue a = .ok c) :
    ∀ field ∈ b.fields, ∃ type, fieldType field = .ok type := by
  obtain ⟨-, hfields, -⟩ := Class.of_ok hc
  obtain ⟨params, hparams, -⟩ := declareFields_of_agrees (ClassType.agrees_iff.mp hagrees)
    ha.fields hb.fields hfields
  exact exists_fieldType_of_declareFields hparams

theorem sameFields_of_agrees {catalogue other : Catalogue} {a b : ClassType}
    {c d : Surface.Class}
    (hname : b.name.same a.name = true) (hagrees : a.agrees b = true)
    (ha : a.Lawful settings) (hb : b.Lawful settings) (hc : Class.of catalogue a = .ok c)
    (hd : Class.of other b = .ok d) : d.SameFields c := by
  obtain ⟨hcname, hfields, -⟩ := Class.of_ok hc
  obtain ⟨hdname, hfields', -⟩ := Class.of_ok hd
  have hagrees' := ClassType.agrees_symm ha.properNames hb.properNames hagrees
  obtain ⟨params, hparams, hsame⟩ := declareFields_of_agrees
    (ClassType.agrees_iff.mp hagrees') hb.fields ha.fields hfields'
  obtain rfl : params = c.fields := Except.ok.inj (hparams.symm.trans hfields)
  exact ⟨by rw [hcname, hdname, hname], hsame⟩

end ApiBindings
