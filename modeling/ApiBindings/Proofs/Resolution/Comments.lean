import ApiBindings.Proofs.Nominal.Comments
import ApiBindings.Proofs.Resolution.Run
/-!
# Resolving without comments

A type without comments is resolved, from what is known without comments, as
the type itself is: the outcome is the same, and so is what is known then, but
for the comments.  The induction is over the type tree.
-/

namespace ApiBindings

/-- What is known, with no comments on the fields of classes. -/
def Knowledge.uncommented (known : Knowledge) : Knowledge :=
  { known with catalogue := known.catalogue.uncommented }

namespace Resolving

/-- A plain step does without comments what a step does with them; `erase` takes
the comments out of a result. -/
def Plain {α : Type} (erase : α → α) (step plain : Resolving α) : Prop :=
  ∀ known, plain.outcome known.uncommented =
    ((step.outcome known).1.map erase, (step.outcome known).2.uncommented)

section

variable {α β : Type} {erase : α → α} {erase' : β → β}

theorem Plain.pure {a b : α} (hsame : b = erase a) : Plain erase (pure a) (pure b) := by
  intro known
  rw [outcome_pure, outcome_pure, hsame]
  rfl

theorem Plain.throw (failure : Failure) :
    Plain erase (throw failure : Resolving α) (throw failure) := by
  intro known
  rfl

theorem Plain.bind {step plain : Resolving α} {next next' : α → Resolving β}
    (hstep : Plain erase step plain) (hnext : ∀ a, Plain erase' (next a) (next' (erase a))) :
    Plain erase' (step >>= next) (plain >>= next') := by
  intro known
  rw [outcome_bind, outcome_bind, hstep known]
  generalize step.outcome known = ended
  obtain ⟨result, after⟩ := ended
  cases result with
  | error failure => rfl
  | ok a => exact hnext a after

theorem Plain.bind_id {step plain : Resolving α} {next next' : α → Resolving β}
    (hstep : Plain id step plain) (hnext : ∀ a, Plain erase' (next a) (next' a)) :
    Plain erase' (step >>= next) (plain >>= next') :=
  hstep.bind hnext

theorem Plain.ofExcept {result result' : Except Failure α} (hsame : result' = result.map erase) :
    Plain erase (Resolving.ofExcept result) (Resolving.ofExcept result') := by
  intro known
  rw [outcome_ofExcept, outcome_ofExcept, hsame]

theorem Plain.ofExcept_id (result : Except Failure α) :
    Plain id (Resolving.ofExcept result) (Resolving.ofExcept result) := by
  apply Plain.ofExcept
  cases result <;> rfl

theorem Plain.get_bind {next next' : Knowledge → Resolving α}
    (hnext : ∀ known, Plain erase (next known) (next' known.uncommented)) :
    Plain erase (get >>= next) (get >>= next') := by
  intro known
  rw [outcome_get_bind, outcome_get_bind]
  exact hnext known known

theorem Plain.modify {change change' : Knowledge → Knowledge}
    (hchange : ∀ known, change' known.uncommented = (change known).uncommented) :
    Plain id (modify change : Resolving PUnit) (modify change') := by
  intro known
  rw [outcome_modify, outcome_modify, hchange]
  rfl

theorem Plain.onCatalogue {step plain : Catalogue → Except Failure (α × Catalogue)}
    (hstep : ∀ catalogue, plain catalogue.uncommented =
      (step catalogue).map (Prod.map erase Catalogue.uncommented)) :
    Plain erase (onCatalogue step) (onCatalogue plain) := by
  intro known
  have hplain : plain known.uncommented.catalogue =
      (step known.catalogue).map (Prod.map erase Catalogue.uncommented) := hstep known.catalogue
  rw [outcome_onCatalogue, outcome_onCatalogue, hplain]
  cases step known.catalogue <;> rfl

theorem Plain.openOwner (owner : Option Text) :
    Plain id (openOwner owner) (Resolving.openOwner owner) := by
  apply Plain.modify
  intro known
  exact congrArg (Knowledge.mk · known.resolved)
    (Catalogue.openOwner_uncommented known.catalogue (owner.getD []))

end

theorem plain_registerClass (new : ClassType) :
    Plain ClassType.uncommented (registerClass new) (registerClass new.uncommented) := by
  have hadd : Plain ClassType.uncommented (onCatalogue (·.addClass new))
      (onCatalogue (·.addClass new.uncommented)) :=
    .onCatalogue fun catalogue => catalogue.addClass_uncommented new
  unfold registerClass
  rw [ClassType.scope_uncommented]
  split
  next => exact (Plain.openOwner new.owner).bind_id fun _ => hadd
  next => exact hadd

theorem plain_classFor {name : Json} {path : Text} {scope : Scope} {owner : Option Text}
    {isReturnType : Bool} {fields fields' : Resolving (List Field)}
    (hfields : Plain (List.map Field.uncommented) fields fields') :
    Plain ClassType.uncommented (classFor name path scope owner isReturnType fields)
      (classFor name path scope owner isReturnType fields') := by
  have hnew : Plain ClassType.uncommented
      (do
        let fields ← fields
        registerClass { name, fields, scope, path, isReturnType,
                        owner := if scope = .ownerLocal then owner else none })
      (do
        let fields ← fields'
        registerClass { name, fields, scope, path, isReturnType,
                        owner := if scope = .ownerLocal then owner else none }) :=
    hfields.bind fun fields => plain_registerClass _
  unfold classFor
  cases scope with
  | global => exact hnew
  | ownerLocal =>
      apply (Plain.openOwner owner).bind_id
      intro _
      simp only
      split
      next => exact .throw _
      next =>
        simp only [pure_bind]
        apply Plain.get_bind
        intro known
        have hlocal : known.uncommented.catalogue.local? (owner.getD []) name =
            (known.catalogue.local? (owner.getD []) name).map ClassType.uncommented :=
          known.catalogue.local?_uncommented (owner.getD []) name
        rw [hlocal]
        cases known.catalogue.local? (owner.getD []) name with
        | some existing => exact .pure rfl
        | none => exact hnew

theorem plain_resolveOnce {settings : Settings} {owner : Owner} {address : Address}
    {expression : Text} {derived derived' : Resolving TypeRef}
    (hderived : Plain id derived derived') :
    Plain id (resolveOnce settings owner address expression derived)
      (resolveOnce settings owner address expression derived') := by
  have hremember : ∀ ref : TypeRef, Plain id
      (do
        modify fun known : Knowledge =>
          { known with resolved := (address, ref) :: known.resolved }
        pure ref)
      (do
        modify fun known : Knowledge =>
          { known with resolved := (address, ref) :: known.resolved }
        pure ref) := by
    intro ref
    have hadd : Plain id
        (modify fun known : Knowledge =>
          { known with resolved := (address, ref) :: known.resolved })
        (modify fun known : Knowledge =>
          { known with resolved := (address, ref) :: known.resolved }) :=
      .modify fun _ => rfl
    exact hadd.bind_id fun _ => .pure rfl
  unfold resolveOnce
  apply Plain.get_bind
  intro known
  have hknown : known.uncommented.resolved = known.resolved := rfl
  rw [hknown]
  cases known.resolved.lookup address with
  | some ref => exact .pure rfl
  | none =>
      apply (Plain.ofExcept_id _).bind_id
      intro replaced
      cases replaced with
      | some ref => exact hremember ref
      | none => exact hderived.bind_id hremember

section

variable {settings : Settings}

/-! ## The induction -/

mutual

theorem plain_convert (depth : Depth) (fixed : Bool) (made : Option TypeRef) (node : TypeNode)
    (owner : Owner) (address : Address) :
    Plain id (convert settings owner address depth fixed made node)
      (convert settings owner address depth fixed made node.uncommented) := by
  have hbuiltin : ∀ spelling made, Plain id
      (pure (.builtin spelling, made) : Resolving (TypeRef × Option TypeRef))
      (pure (.builtin spelling, made)) := fun _ _ => .pure rfl
  have hexpression := node.expression_uncommented
  cases node with
  | primitive name path =>
      rw [TypeNode.uncommented, convert]
      split
      next => exact .throw _
      next => exact hbuiltin _ _
  | array path element =>
      rw [TypeNode.uncommented, convert, convert]
      apply (plain_convert .inner fixed made element owner address).bind_id
      rintro ⟨element', made'⟩
      dsimp only
      split
      next => exact hbuiltin _ _
      next => exact (Plain.ofExcept_id _).bind_id fun _ => hbuiltin _ _
  | map name path key value =>
      rw [TypeNode.uncommented] at hexpression ⊢
      rw [convert, convert, hexpression]
      split
      next => exact .throw _
      next =>
        apply (plain_convert .inner false made key owner address).bind_id
        rintro ⟨key', made'⟩
        apply (plain_convert .inner false made' value owner address).bind_id
        rintro ⟨value', made''⟩
        exact (Plain.ofExcept_id _).bind_id fun _ => hbuiltin _ _
  | generic name path args =>
      rw [TypeNode.uncommented] at hexpression ⊢
      rcases args with _ | ⟨arg, _ | ⟨other, rest⟩⟩
      · exact .throw _
      · rw [TypeNode.uncommentedTypes, TypeNode.uncommentedTypes] at hexpression ⊢
        rw [convert, convert, hexpression]
        split
        next => exact plain_convert depth fixed made arg owner address
        next => exact .throw _
      · simp only [TypeNode.uncommentedTypes] at hexpression ⊢
        rw [convert, convert, hexpression]
        · exact .throw _
        all_goals simp
  | bareFunction path result =>
      have hnode : (TypeNode.bareFunction path result).uncommented =
          .bareFunction path (result.map TypeNode.uncommented) := by
        cases result <;> rfl
      rw [hnode] at hexpression ⊢
      rw [convert, convert, hexpression]
      exact .throw _
  | function path args result =>
      have hnode : (TypeNode.function path args result).uncommented =
          .function path (TypeNode.uncommentedTypes args) (result.map TypeNode.uncommented) := by
        cases result <;> rfl
      rw [hnode] at hexpression ⊢
      rcases args with _ | ⟨arg, _ | ⟨other, rest⟩⟩
      · rw [TypeNode.uncommentedTypes] at hexpression ⊢
        rw [convert, convert, hexpression]
        · exact .throw _
        all_goals simp
      · rw [TypeNode.uncommentedTypes, TypeNode.uncommentedTypes] at hexpression ⊢
        rw [convert, convert, hexpression, TypeNode.functionRole_uncommented]
        apply (plain_convert .inner false made arg owner address).bind_id
        rintro ⟨arg', made'⟩
        dsimp only
        split
        next => exact (Plain.ofExcept_id _).bind_id fun _ => hbuiltin _ _
        next => exact (Plain.ofExcept_id _).bind_id fun _ => hbuiltin _ _
        next => exact .throw _
      · simp only [TypeNode.uncommentedTypes] at hexpression ⊢
        rw [convert, convert, hexpression]
        · exact .throw _
        all_goals simp
  | union name path members =>
      rw [TypeNode.uncommented] at hexpression ⊢
      rw [convert, convert, hexpression, TypeNode.nullableMember?_uncommented,
        TypeNode.variants_uncommented, Option.isSome_map, List.countP_map]
      have harrays : TypeNode.isArray ∘ TypeNode.uncommented = TypeNode.isArray :=
        funext TypeNode.isArray_uncommented
      rw [harrays]
      split
      next =>
        have henum : Plain id (onCatalogue (·.enumFor name path members))
            (onCatalogue (·.enumFor name path (TypeNode.uncommentedTypes members))) :=
          .onCatalogue fun catalogue => catalogue.enumFor_uncommented name path members
        exact henum.bind_id fun enum => .pure rfl
      next =>
        dsimp only
        split
        next => exact hbuiltin _ _
        next => exact .throw _
        next kind =>
          split
          next =>
            apply (plain_convertNullable made members owner address).bind_id
            rintro ⟨ref, made'⟩
            exact .pure rfl
          next =>
            split
            next =>
              apply (plain_convertVariants _ made members owner address).bind_id
              rintro ⟨variants, made'⟩
              exact .pure rfl
            next =>
              apply (plain_convertVariants false made members owner address).bind_id
              rintro ⟨variants, made'⟩
              exact .pure rfl
            next => exact .throw _
  | record path properties =>
      cases made with
      | some ref =>
          rw [TypeNode.uncommented, convert, convert]
          exact .pure rfl
      | none =>
          rw [TypeNode.uncommented, convert, convert]
          apply (Plain.ofExcept_id _).bind_id
          intro plan
          apply (plain_classFor
            (plain_convertFields plan.name.display 0 properties owner address)).bind
          intro _
          exact .pure rfl
termination_by structural node

theorem plain_convertNullable (made : Option TypeRef) (members : List TypeNode) (owner : Owner)
    (address : Address) :
    Plain id (convertNullable settings owner address made members)
      (convertNullable settings owner address made (TypeNode.uncommentedTypes members)) := by
  cases members with
  | nil => exact .pure rfl
  | cons member rest =>
      rw [TypeNode.uncommentedTypes, convertNullable, convertNullable,
        TypeNode.isVariant_uncommented]
      split
      next => exact plain_convert .inner false made member owner address
      next => exact plain_convertNullable made rest owner address
termination_by structural members

theorem plain_convertVariants (fixed : Bool) (made : Option TypeRef) (members : List TypeNode)
    (owner : Owner) (address : Address) :
    Plain id (convertVariants settings owner address fixed made members)
      (convertVariants settings owner address fixed made (TypeNode.uncommentedTypes members)) := by
  cases members with
  | nil => exact .pure rfl
  | cons member rest =>
      rw [TypeNode.uncommentedTypes, convertVariants, convertVariants,
        TypeNode.isVariant_uncommented]
      split
      next =>
        apply (plain_convert .inner fixed made member owner address).bind_id
        rintro ⟨ref, made'⟩
        apply (plain_convertVariants fixed made' rest owner address).bind_id
        rintro ⟨refs, made''⟩
        exact .pure rfl
      next => exact plain_convertVariants fixed made rest owner address
termination_by structural members

theorem plain_convertFields (className : Text) (position : Nat)
    (properties : List (Slot TypeNode)) (owner : Owner) (address : Address) :
    Plain (List.map Field.uncommented)
      (convertFields settings owner address className position properties)
      (convertFields settings owner address className position
        (TypeNode.uncommentedSlots properties)) := by
  cases properties with
  | nil => exact .pure rfl
  | cons property rest =>
      obtain ⟨name, path, type, required, comment⟩ := property
      rw [TypeNode.uncommentedSlots, convertFields, convertFields, type.expression_uncommented]
      have hconvert := plain_convert .outer false none type (owner.property path name className)
        (address.property position)
      apply (plain_resolveOnce (hconvert.bind_id fun result => .pure rfl)).bind_id
      intro ref
      apply (plain_convertFields className (position + 1) rest owner address).bind
      intro fields
      exact .pure rfl
termination_by structural properties

end

theorem plain_resolveType (type : TypeNode) (owner : Owner) (address : Address) :
    Plain id (resolveType settings owner address type)
      (resolveType settings owner address type.uncommented) := by
  unfold resolveType
  rw [type.expression_uncommented]
  have hconvert : Plain id (convert settings owner address .outer false none type)
      (convert settings owner address .outer false none type.uncommented) :=
    plain_convert .outer false none type owner address
  exact plain_resolveOnce (hconvert.bind_id fun result => .pure rfl)

theorem plain_resolve (type : Option TypeNode) (owner : Owner) (address : Address) :
    Plain id (resolve settings owner address type)
      (resolve settings owner address (type.map TypeNode.uncommented)) := by
  cases type with
  | none => exact .pure rfl
  | some type => exact plain_resolveType type owner address

end

end Resolving
end ApiBindings
