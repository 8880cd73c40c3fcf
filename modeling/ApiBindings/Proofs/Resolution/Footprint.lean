import ApiBindings.Proofs.Nominal.Agreement
import ApiBindings.Proofs.Resolution.Kept
import ApiBindings.Proofs.Settings
/-!
# What resolving leaves untouched

Resolving a type at an address remembers results at this address and below it,
and adds local classes to the interface around the owner; everything else stays
as it was.  The names of types that it registers are proper values.
-/

namespace ApiBindings

/-- Nothing is remembered at an address or below it. -/
def Knowledge.Clear (known : Knowledge) (address : Address) : Prop :=
  ∀ entry ∈ known.resolved, ¬address <:+ entry.1

theorem Knowledge.Clear.lookup {known : Knowledge} {address : Address}
    (hclear : known.Clear address) : known.resolved.lookup address = none := by
  cases hfound : known.resolved.lookup address with
  | none => rfl
  | some ref =>
      obtain ⟨newer, older, hsplit, -⟩ := List.lookup_eq_some_iff.mp hfound
      exact absurd List.suffix_rfl (hclear (address, ref) (by simp [hsplit]))

theorem Knowledge.Clear.under {known : Knowledge} {address : Address}
    (hclear : known.Clear address) (positions : Address) :
    known.Clear (positions ++ address) :=
  fun entry hentry hsuffix => hclear entry hentry ((List.suffix_append _ _).trans hsuffix)

theorem Knowledge.Clear.below {known : Knowledge} {address : Address}
    (hclear : known.Clear address) (position : Nat) :
    known.Clear (position :: address) :=
  hclear.under [position]

/-- Neither of two addresses is below the other one. -/
def Address.Apart (a b : Address) : Prop :=
  ¬a <:+ b ∧ ¬b <:+ a

theorem Address.Apart.property {a b : Address} (hapart : a.Apart b) (position : Nat) :
    (a.property position).Apart b := by
  refine ⟨fun hsuffix => hapart.1 ((List.suffix_cons _ _).trans hsuffix), fun hsuffix => ?_⟩
  rcases List.suffix_cons_iff.mp hsuffix with rfl | hsuffix
  · exact hapart.1 (List.suffix_cons _ _)
  · exact hapart.2 hsuffix

theorem Address.apart_of_ne {position other : Nat} (hne : position ≠ other)
    (address : Address) : Address.Apart (position :: address) (other :: address) := by
  constructor <;> intro hsuffix <;>
    simpa [hne, hne.symm] using hsuffix.eq_of_length (by simp)

/-- These interfaces have no local classes, and nothing is remembered at these
addresses or below them. -/
structure Knowledge.Untouched (interfaces : List Text) (addresses : Address → Prop)
    (known : Knowledge) : Prop where
  locals : ∀ interface ∈ interfaces, known.catalogue.localClasses interface = []
  memory : ∀ address, addresses address → known.Clear address

namespace Resolving

/-- What is untouched stays so while types are resolved elsewhere. -/
def untouchedContract (settings : Settings) (interfaces : List Text)
    (addresses : Address → Prop) : Contract settings where
  suits owner address := owner.interface ∉ interfaces ∧
    ∀ other, addresses other → address.Apart other
  inv := Knowledge.Untouched interfaces addresses
  good _ _ _ := True
  suits_property path name className position hsuits :=
    ⟨hsuits.1, fun other hother => (hsuits.2 other hother).property position⟩
  good_grows _ _ := trivial
  good_builtin _ _ _ := trivial
  good_asNullable _ _ := trivial
  good_union _ _ _ := trivial
  good_replaced _ _ := trivial
  good_remembered _ _ _ := trivial
  remember hsuits hinv _ :=
    { hinv with
      memory := by
        intro other hother entry hentry
        rcases List.mem_cons.mp hentry with rfl | hentry
        · exact (hsuits.2 other hother).2
        · exact hinv.memory other hother entry hentry }
  registerEnum _ hinv hadd := by
    refine ⟨?_, trivial⟩
    obtain ⟨values, -, ⟨-, -, rfl⟩ | ⟨-, -, rfl⟩⟩ := Catalogue.enumFor_ok hadd
    · exact ⟨hinv.locals, hinv.memory⟩
    · exact hinv
  openOwner _ hinv := by
    refine ⟨fun interface hinterface => ?_, hinv.memory⟩
    rw [Catalogue.localClasses_openOwner]
    exact hinv.locals interface hinterface
  existing _ _ _ _ _ := trivial
  register {owner _ known plan path fields _ _} hsuits hinv hplan _ hadd := by
    refine ⟨?_, trivial⟩
    obtain ⟨-, ⟨-, -, rfl⟩ | ⟨hlocal, -, rfl, rfl⟩ | ⟨-, -, rfl, rfl⟩ | ⟨-, -, -, rfl⟩⟩ :=
      Catalogue.addClass_ok hadd
    · exact hinv
    · refine ⟨fun interface hinterface => ?_, hinv.memory⟩
      have howner : (plan.classType path fields).owner = some owner.interface := by
        obtain ⟨hscope, -, -⟩ | ⟨hscope, howner, -, -⟩ := ClassPlan.of_ok hplan
        · exact absurd (hscope.symm.trans hlocal) (by simp)
        · simp [ClassPlan.classType, hscope, howner]
      have hne : interface ≠ owner.interface := by
        rintro rfl
        exact hsuits.1 hinterface
      rw [howner, Option.getD_some, Catalogue.localClasses_addLocal, if_neg hne]
      exact hinv.locals interface hinterface
    · exact ⟨hinv.locals, hinv.memory⟩
    · exact hinv

end Resolving

/-! ## Proper names -/

theorem TypeRef.kept_proper {settings : Settings} (hsettings : settings.ProperTargets) :
    TypeRef.Kept settings fun ref => ref.name.Proper where
  builtin _ := trivial
  enum _ := trivial
  union _ _ := trivial
  asNullable {ref} hproper := by
    cases ref
    exact hproper
  replaced hreplaced := by
    obtain ⟨replaced, hoverride, rfl⟩ := replacement?_some hreplaced
    have htarget := hsettings _ _ hoverride
    split <;> exact htarget
  plan {_ plan} _ hkey := Json.proper_of_isKey (v := plan.name) hkey

theorem ClassType.IsGlobal.properNames {type : ClassType}
    (hglobal : type.IsGlobal fun ref => ref.name.Proper) : type.ProperNames := by
  intro field hfield
  obtain ⟨ref, htype, hproper⟩ := hglobal.typed field hfield
  simpa [Field.signature, htype] using hproper

end ApiBindings
