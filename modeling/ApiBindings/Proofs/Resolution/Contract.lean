import ApiBindings.Proofs.Resolution.Run
/-!
# What resolving keeps

Resolving a type calls itself for the properties of records, and it adds to
what is known in four places only: it remembers a result, registers an enum,
opens an owner and registers a class.  A contract says of each of these
additions what it keeps.  From that the induction over type trees below
derives, once for all contracts, what resolving keeps, whatever its outcome.
-/

namespace ApiBindings

/-- The class that a plan makes from fields. -/
def ClassPlan.classType (plan : ClassPlan) (path : Text) (fields : List Field) :
    ClassType where
  name := plan.name
  fields := fields
  scope := plan.scope
  owner := if plan.scope = .ownerLocal then plan.owner else none
  path := path
  isReturnType := plan.isReturnType

/-- A plan is for a global class named by the settings, or for a local class of
the interface around the owner. -/
theorem ClassPlan.of_ok {settings : Settings} {owner : Owner} {plan : ClassPlan}
    (hplan : ClassPlan.of settings owner = .ok plan) :
    (plan.scope = .global ∧ plan.owner = none ∧
        settings.className owner.name = .ok plan.name) ∨
      (plan.scope = .ownerLocal ∧ plan.owner = some owner.interface ∧
        owner.kind ≠ .field ∧ ∃ text, plan.name = .str text) := by
  unfold ClassPlan.of at hplan
  split at hplan
  next hglobal =>
    cases hname : settings.className owner.name with
    | error failure => simp [hname, bind, Except.bind] at hplan
    | ok name =>
        simp only [hname, bind, Except.bind, pure, Except.pure,
          Except.ok.injEq] at hplan
        subst plan
        exact .inl ⟨rfl, rfl, rfl⟩
  next hlocal =>
    simp only [Except.ok.injEq] at hplan
    subst plan
    refine .inr ⟨rfl, rfl, ?_, _, rfl⟩
    intro hfield
    exact hlocal (.inr (.inl hfield))

/-- A replaced type is an enum or a global class named by its target. -/
theorem replacement?_some {settings : Settings} {path expression : Text}
    {ref : TypeRef}
    (hreplaced : replacement? settings path expression = .ok (some ref)) :
    ∃ replaced, settings.override? path = .ok (some replaced) ∧
      ref = if replaced.kind.isText "enum" then .enum replaced.target
        else .globalClass replaced.target := by
  unfold replacement? at hreplaced
  cases hoverride : settings.override? path with
  | error failure => simp [hoverride, bind, Except.bind] at hreplaced
  | ok found =>
      cases found with
      | none => simp [hoverride, bind, Except.bind, pure, Except.pure] at hreplaced
      | some replaced =>
          simp only [hoverride, bind, Except.bind] at hreplaced
          split at hreplaced
          next => simp [throw, throwThe, MonadExceptOf.throw] at hreplaced
          next =>
            simp only [pure, Except.pure, Except.ok.injEq, Option.some.injEq] at hreplaced
            exact ⟨replaced, rfl, hreplaced.symm⟩

namespace Resolving

/-- What is kept by each addition to the knowledge: the invariant `inv`, and of
references the property `good`.  It is so for the owners and addresses that `suits`
admits, and where nothing is remembered, so that a reference is derived, for those
that `derives` admits. -/
structure Contract (settings : Settings) where
  suits : Owner → Address → Prop
  derives : Owner → Address → Prop := suits
  inv : Knowledge → Prop
  good : Address → TypeRef → Knowledge → Prop
  derives_of_free {owner : Owner} {address : Address} {known : Knowledge}
    (hsuits : suits owner address) (hinv : inv known)
    (hfree : known.resolved.lookup address = none) : derives owner address := by
      exact fun hsuits _ _ => hsuits
  suits_property {owner : Owner} {address : Address} (path name className : Text)
    (position : Nat) (hderives : derives owner address) :
    suits (owner.property path name className) (address.property position)
  good_grows {address : Address} {ref : TypeRef} {before after : Knowledge}
    (hgrows : before.GrowsTo after) (hgood : good address ref before) :
    good address ref after
  good_builtin (address : Address) (spelling : Text) (known : Knowledge) :
    good address (.builtin spelling) known
  good_asNullable {owner : Owner} {address : Address} {ref : TypeRef} {known : Knowledge}
    (hderives : derives owner address) (hgood : good address ref known) :
    good address ref.asNullable known
  good_union {owner : Owner} {address : Address} {variants : List TypeRef}
    {known : Knowledge} (name : Text) (hderives : derives owner address)
    (hgood : ∀ variant ∈ variants, good address variant known) :
    good address (.union name variants) known
  good_replaced {owner : Owner} {address : Address} {expression : Text}
    {ref : TypeRef} {known : Knowledge} (hsuits : suits owner address)
    (hreplaced : replacement? settings owner.path expression = .ok (some ref)) :
    good address ref known
  good_remembered {owner : Owner} {address : Address} {ref : TypeRef}
    {known : Knowledge} (hsuits : suits owner address) (hinv : inv known)
    (hfound : (address, ref) ∈ known.resolved) : good address ref known
  remember {owner : Owner} {address : Address} {ref : TypeRef} {known : Knowledge}
    (hderives : derives owner address) (hinv : inv known)
    (hgood : good address ref known) :
    inv { known with resolved := (address, ref) :: known.resolved }
  registerEnum {owner : Owner} {address : Address} {known : Knowledge}
    {name path : Text} {members : List TypeNode} {enum : EnumType}
    {catalogue : Catalogue} (hderives : derives owner address) (hinv : inv known)
    (hadd : known.catalogue.enumFor name path members = .ok (enum, catalogue)) :
    inv { known with catalogue } ∧
      good address (.enum (.str enum.name)) { known with catalogue }
  openOwner {owner : Owner} {address : Address} {known : Knowledge}
    (hderives : derives owner address) (hinv : inv known) :
    inv { known with catalogue := known.catalogue.openOwner owner.interface }
  existing {owner : Owner} {address : Address} {known : Knowledge}
    {plan : ClassPlan} {type : ClassType} (hderives : derives owner address)
    (hinv : inv known) (hplan : ClassPlan.of settings owner = .ok plan)
    (hlocal : plan.scope = .ownerLocal)
    (hfound : known.catalogue.local? owner.interface plan.name = some type) :
    good address plan.ref known
  register {owner : Owner} {address : Address} {known : Knowledge}
    {plan : ClassPlan} {path : Text} {fields : List Field} {type : ClassType}
    {catalogue : Catalogue} (hderives : derives owner address) (hinv : inv known)
    (hplan : ClassPlan.of settings owner = .ok plan)
    (hfields : ∀ field ∈ fields, ∃ position ref,
      field.type = some ref ∧ good (address.property position) ref known)
    (hadd : known.catalogue.addClass (plan.classType path fields) =
      .ok (type, catalogue)) :
    inv { known with catalogue } ∧ good address plan.ref { known with catalogue }

namespace Contract

variable {settings : Settings} (C : Contract settings)

/-- A derived reference is good, and so is that of the class made on the way. -/
def Derived (address : Address) (result : TypeRef × Option TypeRef)
    (known : Knowledge) : Prop :=
  C.good address result.1 known ∧ ∀ ref ∈ result.2, C.good address ref known

/-- The fields of a class are typed by good references. -/
def Typed (address : Address) (fields : List Field) (known : Knowledge) : Prop :=
  ∀ field ∈ fields, ∃ position ref,
    field.type = some ref ∧ C.good (address.property position) ref known

variable {C} {owner : Owner} {address : Address} {known : Knowledge}

theorem meets_openOwner (hderives : C.derives owner address) (hinv : C.inv known) :
    Meets (Resolving.openOwner (some owner.interface)) C.inv
      (fun _ _ => True) known where
  grows := ⟨Catalogue.growsTo_openOwner _ _, List.suffix_rfl⟩
  keeps := C.openOwner hderives hinv
  result _ _ := trivial

theorem meets_remember {ref : TypeRef} (hderives : C.derives owner address)
    (hinv : C.inv known) (hgood : C.good address ref known) :
    Meets (do
        modify fun known : Knowledge =>
          { known with resolved := (address, ref) :: known.resolved }
        pure ref) C.inv (C.good address) known := by
  have hgrows : known.GrowsTo
      { known with resolved := (address, ref) :: known.resolved } :=
    ⟨.refl _, List.suffix_cons _ _⟩
  refine Meets.bind (M := fun _ => C.good address ref) ?_ ?_
  · exact .modify hgrows (C.remember hderives hinv hgood)
      (C.good_grows hgrows hgood)
  · intro _ after _ hinv hgood
    exact .pure hinv hgood

theorem meets_resolveOnce {expression : Text} {derived : Resolving TypeRef}
    (hsuits : C.suits owner address) (hinv : C.inv known)
    (hderived : C.derives owner address → Meets derived C.inv (C.good address) known) :
    Meets (resolveOnce settings owner address expression derived) C.inv
      (C.good address) known := by
  unfold resolveOnce
  refine .get_bind ?_
  split
  next ref hfound =>
    have hmem : (address, ref) ∈ known.resolved := by
      obtain ⟨newer, older, hsplit, -⟩ := List.lookup_eq_some_iff.mp hfound
      simp [hsplit]
    exact .pure hinv (C.good_remembered hsuits hinv hmem)
  next hfree =>
    have hderives := C.derives_of_free hsuits hinv hfree
    refine .ofExcept_bind hinv fun replaced hreplaced => ?_
    cases replaced with
    | some ref => exact meets_remember hderives hinv (C.good_replaced hsuits hreplaced)
    | none =>
        exact (hderived hderives).bind fun ref after _ hinv hgood =>
          meets_remember hderives hinv hgood

theorem meets_registerEnum {name path : Text} {members : List TypeNode}
    (hderives : C.derives owner address) (hinv : C.inv known) :
    Meets (onCatalogue (·.enumFor name path members)) C.inv
      (fun enum after => C.good address (.enum (.str enum.name)) after) known := by
  refine .onCatalogue hinv fun enum catalogue hadd => ?_
  exact ⟨Catalogue.enumFor_growsTo hadd, C.registerEnum hderives hinv hadd⟩

theorem meets_registerClass {plan : ClassPlan} {path : Text} {fields : List Field}
    (hderives : C.derives owner address) (hinv : C.inv known)
    (hplan : ClassPlan.of settings owner = .ok plan)
    (htyped : C.Typed address fields known) :
    Meets (registerClass (plan.classType path fields)) C.inv
      (fun _ => C.good address plan.ref) known := by
  have hregister : ∀ before, C.inv before → C.Typed address fields before →
      Meets (onCatalogue (·.addClass (plan.classType path fields))) C.inv
        (fun _ => C.good address plan.ref) before := by
    intro before hinv htyped
    refine .onCatalogue hinv fun type catalogue hadd => ?_
    exact ⟨Catalogue.addClass_growsTo hadd, C.register hderives hinv hplan htyped hadd⟩
  unfold registerClass
  obtain ⟨hscope, -, -⟩ | ⟨hscope, howner, -, -⟩ := ClassPlan.of_ok hplan
  · simp only [ClassPlan.classType, hscope] at hregister ⊢
    exact hregister known hinv htyped
  · simp only [ClassPlan.classType, hscope, howner, if_true] at hregister ⊢
    refine (meets_openOwner hderives hinv).bind ?_
    intro _ after hgrows hinv _
    refine hregister after hinv ?_
    intro field hfield
    obtain ⟨position, ref, htype, hgood⟩ := htyped field hfield
    exact ⟨position, ref, htype, C.good_grows hgrows hgood⟩

theorem meets_classFor {plan : ClassPlan} {path : Text}
    {fields : Resolving (List Field)}
    (hderives : C.derives owner address) (hinv : C.inv known)
    (hplan : ClassPlan.of settings owner = .ok plan)
    (hfields : ∀ before, C.inv before →
      Meets fields C.inv (C.Typed address) before) :
    Meets (classFor plan.name path plan.scope plan.owner plan.isReturnType fields)
      C.inv (fun _ => C.good address plan.ref) known := by
  have hnew : ∀ before, C.inv before →
      Meets (do
        let fields ← fields
        registerClass (plan.classType path fields)) C.inv
        (fun _ => C.good address plan.ref) before := by
    intro before hinv
    refine (hfields before hinv).bind ?_
    intro fields after _ hinv htyped
    exact meets_registerClass hderives hinv hplan htyped
  unfold classFor
  obtain ⟨hscope, -, -⟩ | ⟨hscope, howner, -, text, htext⟩ := ClassPlan.of_ok hplan
  · simp only [ClassPlan.classType, hscope] at hnew ⊢
    exact hnew known hinv
  · have hkey : plan.name.isKey = true := htext ▸ rfl
    simp only [ClassPlan.classType, hscope, howner, if_true] at hnew ⊢
    refine (meets_openOwner hderives hinv).bind ?_
    intro _ after _ hinv _
    simp only [hkey, Bool.not_true, Bool.false_eq_true, if_false]
    refine .get_bind ?_
    rw [pure_bind]
    split
    next type hfound =>
      exact .pure hinv (C.existing hderives hinv hplan hscope hfound)
    next => exact hnew after hinv

/-! ## The induction -/

mutual

theorem meets_convert (depth : Depth) (fixed : Bool) (madeClass : Option TypeRef)
    (node : TypeNode) {owner : Owner} {address : Address} {known : Knowledge}
    (hderives : C.derives owner address) (hinv : C.inv known)
    (hmade : ∀ ref ∈ madeClass, C.good address ref known) :
    Meets (convert settings owner address depth fixed madeClass node) C.inv
      (C.Derived address) known := by
  cases node with
  | primitive name path =>
      rw [convert]
      split
      next => exact .throw hinv
      next => exact .pure hinv ⟨C.good_builtin _ _ _, hmade⟩
  | array path element =>
      rw [convert]
      refine (meets_convert .inner fixed madeClass element hderives hinv hmade).bind ?_
      rintro ⟨element', madeClass'⟩ after - hinv ⟨-, hmade'⟩
      simp only
      split
      next => exact .pure hinv ⟨C.good_builtin _ _ _, hmade'⟩
      next =>
        exact .ofExcept_bind hinv fun spelling _ =>
          .pure hinv ⟨C.good_builtin _ _ _, hmade'⟩
  | map name path key value =>
      rw [convert]
      split
      next => exact .throw hinv
      next =>
        refine (meets_convert .inner false madeClass key hderives hinv hmade).bind ?_
        rintro ⟨key', madeClass'⟩ after - hinv ⟨-, hmade'⟩
        refine (meets_convert .inner false madeClass' value hderives hinv hmade').bind ?_
        rintro ⟨value', madeClass''⟩ after - hinv ⟨-, hmade''⟩
        exact .ofExcept_bind hinv fun spelling _ =>
          .pure hinv ⟨C.good_builtin _ _ _, hmade''⟩
  | generic name path args =>
      rcases args with _ | ⟨arg, _ | ⟨other, rest⟩⟩
      · rw [convert]
        · exact .throw hinv
        · simp
      · rw [convert]
        split
        next => exact meets_convert depth fixed madeClass arg hderives hinv hmade
        next => exact .throw hinv
      · rw [convert]
        · exact .throw hinv
        · simp
  | bareFunction path result =>
      rw [convert]
      exact .throw hinv
  | function path args result =>
      rcases args with _ | ⟨arg, _ | ⟨other, rest⟩⟩
      · rw [convert]
        · exact .throw hinv
        · simp
      · rw [convert]
        refine (meets_convert .inner false madeClass arg hderives hinv hmade).bind ?_
        rintro ⟨arg', madeClass'⟩ after - hinv ⟨-, hmade'⟩
        simp only
        split
        next =>
          exact .ofExcept_bind hinv fun spelling _ =>
            .pure hinv ⟨C.good_builtin _ _ _, hmade'⟩
        next =>
          exact .ofExcept_bind hinv fun spelling _ =>
            .pure hinv ⟨C.good_builtin _ _ _, hmade'⟩
        next => exact .throw hinv
      · rw [convert]
        · exact .throw hinv
        · simp
  | union name path members =>
      rw [convert]
      split
      next =>
        refine (meets_registerEnum hderives hinv).bind ?_
        intro enum after hgrows hinv hgood
        exact .pure hinv
          ⟨hgood, fun ref href => C.good_grows hgrows (hmade ref href)⟩
      next =>
        simp only
        split
        next => exact .pure hinv ⟨C.good_builtin _ _ _, hmade⟩
        next => exact .throw hinv
        next kind =>
          split
          next =>
            refine (meets_convertNullable madeClass members hderives hinv hmade).bind ?_
            rintro ⟨ref, madeClass'⟩ after - hinv ⟨hgood, hmade'⟩
            exact .pure hinv ⟨C.good_asNullable hderives hgood, hmade'⟩
          next =>
            split
            next =>
              refine (meets_convertVariants _ madeClass members hderives hinv hmade).bind ?_
              rintro ⟨variants, madeClass'⟩ after - hinv ⟨hgood, hmade'⟩
              exact .pure hinv ⟨C.good_union _ hderives hgood, hmade'⟩
            next =>
              refine (meets_convertVariants _ madeClass members hderives hinv hmade).bind ?_
              rintro ⟨variants, madeClass'⟩ after - hinv ⟨hgood, hmade'⟩
              refine .pure hinv ⟨?_, hmade'⟩
              cases madeClass' with
              | none => exact C.good_union _ hderives hgood
              | some ref => exact hmade' ref rfl
            next => exact .throw hinv
  | record path properties =>
      cases madeClass with
      | some ref =>
          rw [convert]
          exact .pure hinv ⟨hmade ref rfl, hmade⟩
      | none =>
          rw [convert]
          refine .ofExcept_bind hinv fun plan hplan => ?_
          refine (meets_classFor hderives hinv hplan fun before hinv =>
            meets_convertFields plan.name.display 0 properties hderives hinv).bind ?_
          intro type after _ hinv hgood
          refine .pure hinv ⟨hgood, ?_⟩
          rintro _ ⟨rfl⟩
          exact hgood

theorem meets_convertNullable (madeClass : Option TypeRef) (members : List TypeNode)
    {owner : Owner} {address : Address} {known : Knowledge}
    (hderives : C.derives owner address) (hinv : C.inv known)
    (hmade : ∀ ref ∈ madeClass, C.good address ref known) :
    Meets (convertNullable settings owner address madeClass members) C.inv
      (C.Derived address) known := by
  cases members with
  | nil =>
      rw [convertNullable]
      exact .pure hinv ⟨C.good_builtin _ _ _, hmade⟩
  | cons member rest =>
      rw [convertNullable]
      split
      next => exact meets_convert .inner false madeClass member hderives hinv hmade
      next => exact meets_convertNullable madeClass rest hderives hinv hmade

theorem meets_convertVariants (fixed : Bool) (madeClass : Option TypeRef)
    (members : List TypeNode)
    {owner : Owner} {address : Address} {known : Knowledge}
    (hderives : C.derives owner address) (hinv : C.inv known)
    (hmade : ∀ ref ∈ madeClass, C.good address ref known) :
    Meets (convertVariants settings owner address fixed madeClass members) C.inv
      (fun result after => (∀ ref ∈ result.1, C.good address ref after) ∧
        ∀ ref ∈ result.2, C.good address ref after) known := by
  cases members with
  | nil =>
      rw [convertVariants]
      exact .pure hinv ⟨by simp, hmade⟩
  | cons member rest =>
      rw [convertVariants]
      split
      next =>
        refine (meets_convert .inner fixed madeClass member hderives hinv hmade).bind ?_
        rintro ⟨ref, madeClass'⟩ after - hinv ⟨hgood, hmade'⟩
        refine (meets_convertVariants fixed madeClass' rest hderives hinv hmade').bind ?_
        rintro ⟨refs, madeClass''⟩ after hgrows hinv ⟨hgoods, hmade''⟩
        refine .pure hinv ⟨?_, hmade''⟩
        intro variant hvariant
        rcases List.mem_cons.mp hvariant with rfl | hvariant
        · exact C.good_grows hgrows hgood
        · exact hgoods variant hvariant
      next => exact meets_convertVariants fixed madeClass rest hderives hinv hmade

theorem meets_convertFields (className : Text) (position : Nat)
    (properties : List (Slot TypeNode))
    {owner : Owner} {address : Address} {known : Knowledge}
    (hderives : C.derives owner address) (hinv : C.inv known) :
    Meets (convertFields settings owner address className position properties) C.inv
      (C.Typed address) known := by
  cases properties with
  | nil =>
      rw [convertFields]
      exact .pure hinv (by simp [Typed])
  | cons property rest =>
      obtain ⟨name, path, type, required, comment⟩ := property
      rw [convertFields]
      have hsuits' := C.suits_property path name className position hderives
      refine (meets_resolveOnce hsuits' hinv fun hderives' =>
        (meets_convert .outer false none type hderives' hinv (by simp)).bind
          fun result after _ hinv hderived => .pure hinv hderived.1).bind ?_
      intro ref after _ hinv hgood
      refine (meets_convertFields className (position + 1) rest hderives hinv).bind ?_
      intro fields after hgrows hinv htyped
      refine .pure hinv ?_
      intro field hfield
      rcases List.mem_cons.mp hfield with rfl | hfield
      · exact ⟨position, ref, rfl, C.good_grows hgrows hgood⟩
      · exact htyped field hfield

end

theorem meets_resolveType (type : TypeNode)
    (hsuits : C.suits owner address) (hinv : C.inv known) :
    Meets (resolveType settings owner address type) C.inv (C.good address) known :=
  meets_resolveOnce hsuits hinv fun hderives =>
    (meets_convert .outer false none type hderives hinv (by simp)).bind
      fun _ _ _ hinv hderived => .pure hinv hderived.1

theorem meets_resolve (type : Option TypeNode)
    (hsuits : C.suits owner address) (hinv : C.inv known) :
    Meets (resolve settings owner address type) C.inv (C.good address) known := by
  cases type with
  | none => exact .pure hinv (C.good_builtin _ _ _)
  | some type => exact meets_resolveType type hsuits hinv

end Contract
end Resolving
end ApiBindings
