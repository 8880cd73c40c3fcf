import ApiBindings.Proofs.Nominal.Names
import ApiBindings.Proofs.Resolution.Contract
/-!
# Steps of registration

Types come into the catalogue by resolving a type of the description, and by
registering an enum or a class.  A class may be made from a record whose fields
are found by further such steps, so that one step can register many types
before it fails.  Whatever steps are taken, with success or not, the catalogue
only grows, every name in it stays unique, and resolving for an interface adds
local classes to that interface alone.
-/

namespace ApiBindings

/-- A step that may add nominal types. -/
inductive Registration where
  | resolve (owner : Owner) (address : Address) (type : Option TypeNode)
  | enum (name path : Text) (members : List TypeNode)
  /-- A class from the record in a type.  Making its fields takes further steps
  and ends with fields or a failure. -/
  | newClass (name : Json) (type : TypeNode) (scope : Scope) (owner : Option Text)
    (isReturnType : Bool) (making : List Registration)
    (fields : Except Failure (List Field))
  | ofClass (new : ClassType)

mutual

/-- What is known after a step, whatever its outcome. -/
def Registration.attempt (settings : Settings) : Registration → Knowledge → Knowledge
  | .resolve owner address type, known =>
    ((resolve settings owner address type).outcome known).2
  | .enum name path members, known =>
    ((Resolving.onCatalogue (·.enumFor name path members)).outcome known).2
  | .newClass name type scope owner isReturnType making fields, known =>
    let makeFields : Resolving (List Field) := do
      match ← Resolving.ofExcept (Catalogue.classRecord type) with
      | none => pure []
      | some _ =>
        modify (attemptAll settings making)
        Resolving.ofExcept fields
    ((classFor name type.path scope owner isReturnType makeFields).outcome known).2
  | .ofClass new, known => ((registerClass new).outcome known).2

/-- What is known after steps, those that failed included. -/
def attemptAll (settings : Settings) : List Registration → Knowledge → Knowledge
  | [], known => known
  | step :: rest, known => attemptAll settings rest (step.attempt settings known)

end

theorem attemptAll_concat (settings : Settings) (steps : List Registration)
    (step : Registration) (known : Knowledge) :
    attemptAll settings (steps ++ [step]) known =
      step.attempt settings (attemptAll settings steps known) := by
  induction steps generalizing known with
  | nil => rfl
  | cons first rest ih => exact ih _

namespace Resolving

variable {inv inv' : Knowledge → Prop}

theorem Lasting.and (hlasting : Lasting inv) (hlasting' : Lasting inv') :
    Lasting fun known => inv known ∧ inv' known where
  openOwner owner hinv := ⟨hlasting.openOwner owner hinv.1, hlasting'.openOwner owner hinv.2⟩
  enumFor hinv hadd := ⟨hlasting.enumFor hinv.1 hadd, hlasting'.enumFor hinv.2 hadd⟩
  addClass hinv hadd := ⟨hlasting.addClass hinv.1 hadd, hlasting'.addClass hinv.2 hadd⟩

/-- What lasts while types come into the catalogue, and does not mind what is
remembered, is kept while a type is resolved. -/
def Lasting.contract (settings : Settings) (hlasting : Lasting inv)
    (hmemory : ∀ {known : Knowledge} (entry : Address × TypeRef), inv known →
      inv { known with resolved := entry :: known.resolved }) : Contract settings where
  suits _ _ := True
  inv := inv
  good _ _ _ := True
  suits_property _ _ _ _ _ := trivial
  good_grows _ _ := trivial
  good_builtin _ _ _ := trivial
  good_asNullable _ _ := trivial
  good_union _ _ _ := trivial
  good_replaced _ _ := trivial
  good_remembered _ _ _ := trivial
  remember _ hinv _ := hmemory _ hinv
  registerEnum _ hinv hadd := ⟨hlasting.enumFor hinv hadd, trivial⟩
  openOwner _ hinv := hlasting.openOwner _ hinv
  existing _ _ _ _ _ := trivial
  register _ hinv _ _ hadd := ⟨hlasting.addClass hinv hadd, trivial⟩

theorem Lasting.preserves_resolve (hlasting : Lasting inv)
    (hmemory : ∀ {known : Knowledge} (entry : Address × TypeRef), inv known →
      inv { known with resolved := entry :: known.resolved })
    (settings : Settings) (owner : Owner) (address : Address) (type : Option TypeNode) :
    Preserves inv (resolve settings owner address type) := by
  intro known hinv
  have hsuits : (hlasting.contract settings hmemory).suits owner address := trivial
  exact (Contract.meets_resolve type hsuits hinv).keeps

end Resolving

/-! ## What all steps preserve -/

section

variable {settings : Settings} {inv : Knowledge → Prop}

mutual

/-- What resolving preserves, and what lasts while types come into the catalogue,
holds after a step if it did before. -/
theorem Registration.attempt_preserves (hlasting : Resolving.Lasting inv)
    (hresolve : ∀ owner address type,
      Resolving.Preserves inv (resolve settings owner address type))
    (step : Registration) {known : Knowledge} (hinv : inv known) :
    inv (step.attempt settings known) := by
  cases step with
  | resolve owner address type =>
      rw [Registration.attempt]
      exact hresolve owner address type known hinv
  | enum name path members =>
      rw [Registration.attempt]
      exact hlasting.preserves_enumFor name path members known hinv
  | newClass name type scope owner isReturnType making fields =>
      rw [Registration.attempt]
      refine hlasting.preserves_classFor name type.path scope owner isReturnType ?_ known hinv
      refine (Resolving.Preserves.ofExcept _).bind fun record => ?_
      cases record with
      | none => exact .pure _
      | some properties =>
          have hmaking : Resolving.Preserves inv (modify (attemptAll settings making)) :=
            .modify fun _ hbefore => attemptAll_preserves hlasting hresolve making hbefore
          exact hmaking.bind fun _ => .ofExcept fields
  | ofClass new =>
      rw [Registration.attempt]
      exact hlasting.preserves_registerClass new known hinv

theorem attemptAll_preserves (hlasting : Resolving.Lasting inv)
    (hresolve : ∀ owner address type,
      Resolving.Preserves inv (resolve settings owner address type))
    (steps : List Registration) {known : Knowledge} (hinv : inv known) :
    inv (attemptAll settings steps known) := by
  cases steps with
  | nil => exact hinv
  | cons step rest =>
      have hafter := step.attempt_preserves hlasting hresolve hinv
      rw [attemptAll]
      exact attemptAll_preserves hlasting hresolve rest hafter

end

end

/-! ## Names -/

/-- The catalogue is well named and starts with these owners. -/
structure Knowledge.NamedFrom (owners : List Text) (known : Knowledge) : Prop where
  named : known.catalogue.Named
  owners : owners <+: known.catalogue.owners

theorem Knowledge.NamedFrom.remember {owners : List Text} {known : Knowledge}
    (hnamed : known.NamedFrom owners) (entry : Address × TypeRef) :
    Knowledge.NamedFrom owners { known with resolved := entry :: known.resolved } :=
  ⟨hnamed.named, hnamed.owners⟩

namespace Resolving

theorem lasting_growsTo (start : Knowledge) : Lasting start.GrowsTo where
  openOwner _ hgrows := hgrows.trans ⟨Catalogue.growsTo_openOwner _ _, List.suffix_rfl⟩
  enumFor hgrows hadd := hgrows.trans ⟨Catalogue.enumFor_growsTo hadd, List.suffix_rfl⟩
  addClass hgrows hadd := hgrows.trans ⟨Catalogue.addClass_growsTo hadd, List.suffix_rfl⟩

theorem lasting_namedFrom (owners : List Text) : Lasting (Knowledge.NamedFrom owners) where
  openOwner owner hnamed :=
    ⟨hnamed.named.openOwner owner,
      hnamed.owners.trans (Catalogue.appendsTo_openOwner _ _).owners⟩
  enumFor hnamed hadd := by
    obtain ⟨hafter, happends⟩ := hnamed.named.enumFor hadd
    exact ⟨hafter, hnamed.owners.trans happends.owners⟩
  addClass hnamed hadd := by
    obtain ⟨hafter, happends⟩ := hnamed.named.addClass hadd
    exact ⟨hafter, hnamed.owners.trans happends.owners⟩

end Resolving

theorem attemptAll_named (settings : Settings) (steps : List Registration)
    {owners : List Text} {known : Knowledge} (hnamed : known.NamedFrom owners) :
    known.GrowsTo (attemptAll settings steps known) ∧
      (attemptAll settings steps known).NamedFrom owners := by
  have hlasting := (Resolving.lasting_growsTo known).and (Resolving.lasting_namedFrom owners)
  refine attemptAll_preserves hlasting ?_ steps ⟨.refl known, hnamed⟩
  refine hlasting.preserves_resolve ?_ settings
  rintro after entry ⟨hgrows, hafter⟩
  exact ⟨hgrows.trans ⟨.refl _, List.suffix_cons _ _⟩, hafter.remember entry⟩

theorem Registration.attempt_named (settings : Settings) (step : Registration)
    {owners : List Text} {known : Knowledge} (hnamed : known.NamedFrom owners) :
    known.GrowsTo (step.attempt settings known) ∧
      (step.attempt settings known).NamedFrom owners :=
  attemptAll_named settings [step] hnamed

/-! ## Local classes -/

/-- A record that types this owner becomes a global class. -/
def Owner.MakesGlobal (owner : Owner) : Prop :=
  owner.kind = .method ∨ owner.kind = .field ∨
    (owner.kind = .param ∧ owner.name ≠ "options")

theorem ClassPlan.scope_eq_global_iff {settings : Settings} {owner : Owner}
    {plan : ClassPlan} (hplan : ClassPlan.of settings owner = .ok plan) :
    plan.scope = .global ↔ owner.MakesGlobal := by
  unfold ClassPlan.of at hplan
  split at hplan
  next hglobal =>
    cases hname : settings.className owner.name with
    | error failure => simp [hname, bind, Except.bind] at hplan
    | ok name =>
        rw [hname] at hplan
        obtain rfl := Except.ok.inj hplan
        exact ⟨fun _ => hglobal, fun _ => rfl⟩
  next hlocal =>
    obtain rfl := Except.ok.inj hplan
    exact ⟨fun hscope => by simp at hscope, fun hglobal => absurd hglobal hlocal⟩

namespace Resolving

/-- Resolving adds no classes to the locals of owners other than the interface
around the owner of the type, and none to those either if the owner makes its
records global. -/
def localsContract (settings : Settings) (kept : Text → Prop)
    (classes : Text → List ClassType) : Contract settings where
  suits owner _ := kept owner.interface → owner.MakesGlobal
  inv known := ∀ other, kept other → known.catalogue.localClasses other = classes other
  good _ _ _ := True
  suits_property _ _ _ _ _ _ := .inr (.inl rfl)
  good_grows _ _ := trivial
  good_builtin _ _ _ := trivial
  good_asNullable _ _ := trivial
  good_union _ _ _ := trivial
  good_replaced _ _ := trivial
  good_remembered _ _ _ := trivial
  remember _ hinv _ := hinv
  registerEnum _ hinv hadd := by
    obtain ⟨values, -, ⟨-, -, rfl⟩ | ⟨-, -, rfl⟩⟩ := Catalogue.enumFor_ok hadd
    · exact ⟨hinv, trivial⟩
    · exact ⟨hinv, trivial⟩
  openOwner _ hinv other hother := by
    rw [Catalogue.localClasses_openOwner]
    exact hinv other hother
  existing _ _ _ _ _ := trivial
  register {owner _ known plan path fields _ _} hsuits hinv hplan _ hadd := by
    refine ⟨?_, trivial⟩
    obtain ⟨-, ⟨-, -, rfl⟩ | ⟨hlocal, -, rfl, rfl⟩ | ⟨-, -, rfl, rfl⟩ | ⟨-, -, -, rfl⟩⟩ :=
      Catalogue.addClass_ok hadd
    · exact hinv
    · intro other hother
      have hlocal : plan.scope = .ownerLocal := hlocal
      obtain ⟨hscope, -, -⟩ | ⟨-, howner, -, -⟩ := ClassPlan.of_ok hplan
      · exact absurd (hscope.symm.trans hlocal) (by simp)
      · have hne : other ≠ owner.interface := by
          rintro rfl
          have hscope := (ClassPlan.scope_eq_global_iff hplan).mpr (hsuits hother)
          exact absurd (hscope.symm.trans hlocal) (by simp)
        have hplace : (plan.classType path fields).owner.getD [] = owner.interface := by
          simp [ClassPlan.classType, hlocal, howner]
        rw [hplace, Catalogue.localClasses_addLocal, if_neg hne]
        exact hinv other hother
    · exact hinv
    · exact hinv

end Resolving

theorem localClasses_resolve (settings : Settings) (owner : Owner) (address : Address)
    (type : Option TypeNode) (known : Knowledge) {other : Text}
    (hother : other ≠ owner.interface ∨ owner.MakesGlobal) :
    ((resolve settings owner address type).outcome known).2.catalogue.localClasses other =
      known.catalogue.localClasses other := by
  let C := Resolving.localsContract settings
    (fun text => text ≠ owner.interface ∨ owner.MakesGlobal) known.catalogue.localClasses
  have hsuits : C.suits owner address := by
    rintro (hne | hglobal)
    · exact absurd rfl hne
    · exact hglobal
  have hinv : C.inv known := fun _ _ => rfl
  exact (Resolving.Contract.meets_resolve type hsuits hinv).keeps other hother

/-! ## The theorem -/

/-- After any steps, failed ones included, every global name and every local name
of an owner occurs once and is found under itself.  The next step leaves all that
is there in its place; if it resolves a type for an interface, it adds local
classes to no other owner, and to none at all if records of its owner become
global classes. -/
theorem attemptAll_appends (settings : Settings) (steps : List Registration)
    (step : Registration) :
    let before := (attemptAll settings steps .empty).catalogue
    let after := (attemptAll settings (steps ++ [step]) .empty).catalogue
    before.Named ∧
    (∀ type ∈ before.globals, before.global? type.name = some type) ∧
    (∀ owner, ∀ type ∈ before.localClasses owner,
      before.local? owner type.name = some type) ∧
    before.AppendsTo after ∧
    ∀ owner address type, step = .resolve owner address type →
      (∀ other, other ≠ owner.interface →
        after.localClasses other = before.localClasses other) ∧
      (owner.MakesGlobal → ∀ other,
        after.localClasses other = before.localClasses other) := by
  have hempty : Knowledge.empty.NamedFrom [] := ⟨Catalogue.named_empty, List.nil_prefix⟩
  obtain ⟨-, hbefore, -⟩ := attemptAll_named settings steps hempty
  obtain ⟨hgrows, hafter⟩ := step.attempt_named settings
    (⟨hbefore, List.prefix_rfl⟩ : Knowledge.NamedFrom _ (attemptAll settings steps .empty))
  rw [attemptAll_concat]
  refine ⟨hbefore, ?_, ?_, ⟨hgrows.catalogue, hafter.owners⟩, ?_⟩
  · intro type htype
    exact hbefore.global?_self htype
  · intro owner type htype
    exact hbefore.local?_self htype
  · rintro owner address type rfl
    rw [Registration.attempt]
    constructor
    · intro other hne
      exact localClasses_resolve settings owner address type _ (.inl hne)
    · intro hglobal other
      exact localClasses_resolve settings owner address type _ (.inr hglobal)

end ApiBindings
