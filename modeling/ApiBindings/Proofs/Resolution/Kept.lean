import ApiBindings.Proofs.Resolution.Contract
/-!
# Properties of all references

A property that every way to derive a reference gives to it is one of all the
references that ever become known: those remembered and those that type the
fields of classes.
-/

namespace ApiBindings

/-- However a reference is derived, it has this property. -/
structure TypeRef.Kept (settings : Settings) (P : TypeRef → Prop) : Prop where
  builtin (spelling : Text) : P (.builtin spelling)
  enum (name : Text) : P (.enum (.str name))
  union (name : Text) (variants : List TypeRef) : P (.union name variants)
  asNullable {ref : TypeRef} (hkept : P ref) : P ref.asNullable
  replaced {path expression : Text} {ref : TypeRef}
    (hreplaced : replacement? settings path expression = .ok (some ref)) : P ref
  plan {owner : Owner} {plan : ClassPlan} (hplan : ClassPlan.of settings owner = .ok plan)
    (hkey : plan.name.isKey = true) : P plan.ref

/-- All fields of a class are typed, by references of this property. -/
def ClassType.TypedBy (P : TypeRef → Prop) (type : ClassType) : Prop :=
  ∀ field ∈ type.fields, ∃ ref, field.type = some ref ∧ P ref

/-- A class that is registered as a global one: all its fields are typed. -/
structure ClassType.IsGlobal (P : TypeRef → Prop) (type : ClassType) : Prop where
  scope : type.scope = .global
  typed : ∀ field ∈ type.fields, ∃ ref, field.type = some ref ∧ P ref

/-- All references known have this property. -/
structure Knowledge.Keeps (P : TypeRef → Prop) (known : Knowledge) : Prop where
  remembered : ∀ entry ∈ known.resolved, P entry.2
  globals : ∀ type, .ofClass type ∈ known.catalogue.globals → type.IsGlobal P
  locals : ∀ owner, ∀ type ∈ known.catalogue.localClasses owner, type.TypedBy P

variable {settings : Settings} {P : TypeRef → Prop} {known : Knowledge}

theorem Knowledge.keeps_empty : Knowledge.empty.Keeps P := by
  constructor <;> simp [Knowledge.empty, Catalogue.empty, Catalogue.localClasses]

theorem Knowledge.Keeps.addGlobal (hknown : known.Keeps P) {type : NominalType}
    (htype : ∀ added, type = .ofClass added → added.IsGlobal P) :
    Knowledge.Keeps P { known with catalogue := known.catalogue.addGlobal type } where
  remembered := hknown.remembered
  globals added hadded := by
    rcases List.mem_append.mp hadded with hold | hnew
    · exact hknown.globals added hold
    · exact htype added (by simpa [eq_comm] using hnew)
  locals := hknown.locals

theorem Knowledge.Keeps.addLocal (hknown : known.Keeps P) (owner : Text) {type : ClassType}
    (htype : type.TypedBy P) :
    Knowledge.Keeps P { known with catalogue := known.catalogue.addLocal owner type } where
  remembered := hknown.remembered
  globals := hknown.globals
  locals other added hadded := by
    rw [Catalogue.localClasses_addLocal] at hadded
    split at hadded
    next =>
      rcases List.mem_append.mp hadded with hold | hnew
      · exact hknown.locals owner added hold
      · rw [List.mem_singleton.mp hnew]
        exact htype
    next => exact hknown.locals other added hadded

theorem Knowledge.Keeps.openOwner (hknown : known.Keeps P) (owner : Text) :
    Knowledge.Keeps P { known with catalogue := known.catalogue.openOwner owner } where
  remembered := hknown.remembered
  globals := hknown.globals
  locals other := by
    rw [Catalogue.localClasses_openOwner]
    exact hknown.locals other

/-- Resolving keeps a property that every derived reference has. -/
def Resolving.keptContract (hkept : TypeRef.Kept settings P) : Contract settings where
  suits _ _ := True
  inv := Knowledge.Keeps P
  good _ ref _ := P ref
  suits_property _ _ _ _ _ := trivial
  good_grows _ hgood := hgood
  good_builtin _ spelling _ := hkept.builtin spelling
  good_asNullable _ hgood := hkept.asNullable hgood
  good_union name _ _ := hkept.union name _
  good_replaced _ hreplaced := hkept.replaced hreplaced
  good_remembered _ hinv hfound := hinv.remembered _ hfound
  remember _ hinv hgood :=
    { hinv with
      remembered := by
        intro entry hentry
        rcases List.mem_cons.mp hentry with rfl | hentry
        · exact hgood
        · exact hinv.remembered entry hentry }
  registerEnum _ hinv hadd := by
    refine ⟨?_, hkept.enum _⟩
    obtain ⟨values, -, ⟨-, -, rfl⟩ | ⟨-, -, rfl⟩⟩ := Catalogue.enumFor_ok hadd
    · exact hinv.addGlobal (by simp)
    · exact hinv
  openOwner _ hinv := hinv.openOwner _
  existing {_ _ _ plan _} _ _ hplan hlocal _ := by
    obtain ⟨hscope, -, -⟩ | ⟨-, -, -, text, htext⟩ := ClassPlan.of_ok hplan
    · exact absurd (hscope.symm.trans hlocal) (by simp)
    · exact hkept.plan hplan (htext ▸ rfl)
  register {_ _ _ plan path fields _ _} _ hinv hplan hfields hadd := by
    obtain ⟨hkey, hcases⟩ := Catalogue.addClass_ok hadd
    refine ⟨?_, hkept.plan hplan hkey⟩
    have htyped : (plan.classType path fields).TypedBy P := fun field hfield =>
      (hfields field hfield).elim fun _ hfield => hfield
    obtain ⟨-, -, rfl⟩ | ⟨-, -, rfl, rfl⟩ | ⟨hscope, -, rfl, rfl⟩ | ⟨-, -, -, rfl⟩ := hcases
    · exact hinv
    · exact hinv.addLocal _ htyped
    · refine hinv.addGlobal ?_
      rintro _ ⟨rfl⟩
      exact ⟨hscope, htyped⟩
    · exact hinv

end ApiBindings
