import ApiBindings.Proofs.Resolution.Mirror
import ApiBindings.Proofs.Resolution.Unions
import ApiBindings.Surface.Class
/-!
# Unions of fields

A field whose type is an anonymous union is typed as a class or as any object.
The first record that a conversion meets is made into a class and handed on, so
which of the two it is depends on all places that conversions go to: a record may
be a variant itself, but it may as well be held by an array, a map, a promise or
a function among the variants.  Only where no variant holds one is the union
kept, with its variants and a setter for each of them.
-/

namespace ApiBindings
namespace TypeNode

/-- A record is reached from a type. -/
def HoldsRecord (node : TypeNode) : Prop :=
  ∃ path properties, node.Reaches (.record path properties)

variable {name path : Text} {arg : TypeNode}

@[simp] theorem holdsRecord_record (properties : List (Slot TypeNode)) :
    (TypeNode.record path properties).HoldsRecord :=
  ⟨path, properties, .here _⟩

@[simp] theorem not_holdsRecord_primitive : ¬(TypeNode.primitive name path).HoldsRecord := by
  rintro ⟨_, _, ⟨⟩⟩

@[simp] theorem not_holdsRecord_union (members : List TypeNode) :
    ¬(TypeNode.union name path members).HoldsRecord := by
  rintro ⟨_, _, ⟨⟩⟩

@[simp] theorem holdsRecord_array {element : TypeNode} :
    (TypeNode.array path element).HoldsRecord ↔ element.HoldsRecord := by
  constructor
  · rintro ⟨_, _, _ | helement⟩
    exact ⟨_, _, helement⟩
  · rintro ⟨_, _, helement⟩
    exact ⟨_, _, .element helement⟩

@[simp] theorem holdsRecord_map {key value : TypeNode} :
    (TypeNode.map name path key value).HoldsRecord ↔ key.HoldsRecord ∨ value.HoldsRecord := by
  constructor
  · rintro ⟨_, _, _ | _ | hkey | hvalue⟩
    · exact .inl ⟨_, _, hkey⟩
    · exact .inr ⟨_, _, hvalue⟩
  · rintro (⟨_, _, hkey⟩ | ⟨_, _, hvalue⟩)
    · exact ⟨_, _, .key hkey⟩
    · exact ⟨_, _, .value hvalue⟩

@[simp] theorem holdsRecord_promise :
    (TypeNode.generic "Promise" path [arg]).HoldsRecord ↔ arg.HoldsRecord := by
  constructor
  · rintro ⟨_, _, _ | _ | _ | _ | ⟨hmem, harg⟩⟩
    obtain rfl := List.mem_singleton.mp hmem
    exact ⟨_, _, harg⟩
  · rintro ⟨_, _, harg⟩
    exact ⟨_, _, .promised (List.mem_singleton_self arg) harg⟩

@[simp] theorem holdsRecord_function {result : Option TypeNode} :
    (TypeNode.function path [arg] result).HoldsRecord ↔ arg.HoldsRecord := by
  constructor
  · rintro ⟨_, _, _ | _ | _ | _ | _ | ⟨hmem, harg⟩⟩
    obtain rfl := List.mem_singleton.mp hmem
    exact ⟨_, _, harg⟩
  · rintro ⟨_, _, harg⟩
    exact ⟨_, _, .argument (List.mem_singleton_self arg) harg⟩

end TypeNode

namespace Resolving

variable {settings : Settings} {owner : Owner} {address : Address}

/-! ## The class made on the way -/

/-- What is known of the class made on the way once a record may have been met. -/
structure Making (met : Prop) (made made' : Option TypeRef) : Prop where
  isSome : made'.isSome = true ↔ made.isSome = true ∨ met
  isClass : (∀ ref ∈ made, ref.kind = .classType) → ∀ ref ∈ made', ref.kind = .classType

theorem Making.refl {met : Prop} (hmet : ¬met) (made : Option TypeRef) : Making met made made where
  isSome := by simp [hmet]
  isClass := id

theorem Making.trans {met met' : Prop} {made made' made'' : Option TypeRef}
    (hfirst : Making met made made') (hsecond : Making met' made' made'') :
    Making (met ∨ met') made made'' where
  isSome := by rw [hsecond.isSome, hfirst.isSome, or_assoc]
  isClass := hsecond.isClass ∘ hfirst.isClass

theorem Making.congr {met met' : Prop} {made made' : Option TypeRef}
    (hmaking : Making met made made') (hmet : met' ↔ met) : Making met' made made' :=
  propext hmet ▸ hmaking

theorem Making.of_eq_none {met : Prop} {made made' : Option TypeRef}
    (hmaking : Making met made made') (hnone : made' = none) : made = none ∧ ¬met := by
  simpa [hnone] using hmaking.isSome

/-- Inside a type, a class is made as soon as a record is reached. -/
theorem gives_convert_making (node : TypeNode) (fixed : Bool) (made : Option TypeRef) :
    Gives (convert settings owner address .inner fixed made node) fun result =>
      Making node.HoldsRecord made result.2 := by
  cases node with
  | primitive name path =>
      rw [convert]
      split
      next => exact .throw _
      next => exact .pure (.refl (by simp) made)
  | array path element =>
      rw [convert]
      apply (gives_convert_making element fixed made).bind
      rintro ⟨ref, made'⟩ hmaking
      dsimp only at hmaking ⊢
      rw [TypeNode.holdsRecord_array]
      split
      next => exact .pure hmaking
      next => exact .bind_any fun _ => .pure hmaking
  | map name path key value =>
      rw [convert]
      split
      next => exact .throw _
      next =>
        apply (gives_convert_making key false made).bind
        rintro ⟨ref, made'⟩ hkey
        apply (gives_convert_making value false made').bind
        rintro ⟨ref', made''⟩ hvalue
        exact .bind_any fun _ => .pure ((hkey.trans hvalue).congr TypeNode.holdsRecord_map)
  | generic name path args =>
      rcases args with _ | ⟨arg, _ | ⟨other, rest⟩⟩
      · exact .throw _
      · rw [convert]
        split
        next hname =>
          subst hname
          exact (gives_convert_making arg fixed made).imp
            fun _ hmaking => hmaking.congr TypeNode.holdsRecord_promise
        next => exact .throw _
      · rw [convert]
        · exact .throw _
        · simp
  | bareFunction path result =>
      rw [convert]
      exact .throw _
  | function path args result =>
      rcases args with _ | ⟨arg, _ | ⟨other, rest⟩⟩
      · exact .throw _
      · rw [convert]
        apply (gives_convert_making arg false made).bind
        rintro ⟨ref, made'⟩ hmaking
        dsimp only at hmaking ⊢
        rw [TypeNode.holdsRecord_function]
        split
        next => exact .bind_any fun _ => .pure hmaking
        next => exact .bind_any fun _ => .pure hmaking
        next => exact .throw _
      · rw [convert]
        · exact .throw _
        · simp
  | union name path members =>
      rw [convert]
      split
      next => exact .bind_any fun _ => .pure (.refl (by simp) made)
      next =>
        dsimp only
        split
        next => exact .pure (.refl (by simp) made)
        next => exact .throw _
        next => contradiction
  | record path properties =>
      cases made with
      | some ref =>
          rw [convert]
          exact .pure ⟨by simp, id⟩
      | none =>
          rw [convert]
          refine .bind_any fun plan => .bind_any fun _ => .pure ⟨by simp, fun _ => ?_⟩
          rintro _ ⟨rfl⟩
          rfl
termination_by structural node

/-- A type is converted to a reference for its owner, and no class is made on the way. -/
def ConvertsPlainly (settings : Settings) (owner : Owner) (node : TypeNode) (ref : TypeRef) :
    Prop :=
  ∃ address known after,
    outcome (convert settings owner address .inner false none node) known =
      (.ok (ref, none), after)

theorem gives_convertVariants_made (made : Option TypeRef) (members : List TypeNode) :
    Gives (convertVariants settings owner address false made members) fun result =>
      Making (∃ variant ∈ TypeNode.variants members, variant.HoldsRecord) made result.2 ∧
        (result.2 = none →
          List.Forall₂ (ConvertsPlainly settings owner) (TypeNode.variants members) result.1) := by
  induction members generalizing made with
  | nil => exact .pure ⟨.refl (by simp [TypeNode.variants]) made, fun _ => .nil⟩
  | cons member rest ih =>
      rw [convertVariants, TypeNode.variants, List.filter_cons]
      split
      next =>
        have hmember : Gives (convert settings owner address .inner false made member)
            fun result => Making member.HoldsRecord made result.2 ∧
              (result.2 = none → ConvertsPlainly settings owner member result.1) := by
          refine ⟨fun known result hresult => ?_⟩
          have hmaking := (gives_convert_making member false made).result known result hresult
          refine ⟨hmaking, fun hnone => ?_⟩
          -- No class in the end means none before, so this conversion started plainly too.
          obtain ⟨rfl, -⟩ := hmaking.of_eq_none hnone
          exact ⟨address, known, _, Prod.ext (hresult.trans (by rw [← hnone])) rfl⟩
        apply hmember.bind
        rintro ⟨ref, made'⟩ ⟨hfirst, href⟩
        apply (ih made').bind
        rintro ⟨refs, made''⟩ ⟨hothers, hrefs⟩
        refine .pure ⟨(hfirst.trans hothers).congr (List.exists_mem_cons_iff _ _ _), ?_⟩
        intro hnone
        exact .cons (href (hothers.of_eq_none hnone).1) (hrefs hnone)
      next => exact ih made

/-! ## Fields -/

/-- What a field is typed by whose type is, promises aside, a union of these variants: by a
class exactly if some variant holds a record, and else by any object, but with a setter for
each of the variants. -/
structure TypedByUnion (settings : Settings) (owner : Owner) (variants : List TypeNode)
    (field : Field) : Prop where
  isClass : (Surface.fieldRef field).kind = .classType ↔ ∃ variant ∈ variants, variant.HoldsRecord
  isUnion : (Surface.fieldRef field).kind ≠ .classType → ∃ refs,
    field.type = some (.union Java.objectType refs) ∧
    List.Forall₂ (ConvertsPlainly settings owner) variants refs ∧
    ∀ catalogue, Surface.fieldBuilders catalogue field =
      .ok (refs.map (Surface.directBuilder field))

theorem gives_convert_fieldUnion {node : TypeNode} {path : Text} {members : List TypeNode}
    (hkind : owner.kind = .field) (hunion : node.withoutPromise = .union "" path members)
    (hnullable : ¬node.IsNullable) (field : Field) :
    Gives (convert settings owner address .outer false none node) fun result =>
      field.type = some result.1 →
        TypedByUnion settings owner (TypeNode.variants members) field := by
  have hmember : TypeNode.nullableMember? members = none := by
    simpa [TypeNode.isNullable_iff hunion] using hnullable
  rw [convert_withoutPromise, hunion, convert, hkind]
  simp only [ne_eq, not_true_eq_false, if_false, hmember, Option.isSome_none,
    Bool.false_eq_true]
  apply (gives_convertVariants_made none members).bind
  rintro ⟨refs, made⟩ ⟨hmaking, hrefs⟩
  refine .pure fun htype => ?_
  have href : Surface.fieldRef field = made.getD (.union Java.objectType refs) := by
    rw [Surface.fieldRef, htype]
    rfl
  cases made with
  | none =>
      have hnone : ¬∃ variant ∈ TypeNode.variants members, variant.HoldsRecord :=
        (hmaking.of_eq_none rfl).2
      refine ⟨iff_of_false ?_ hnone, fun _ => ⟨refs, htype, hrefs rfl, fun catalogue => ?_⟩⟩
      · rw [href]
        exact nofun
      · rw [Surface.fieldBuilders, href]
        rfl
  | some ref =>
      have hclass : (Surface.fieldRef field).kind = .classType := by
        rw [href]
        exact hmaking.isClass (by simp) ref rfl
      have hmet : ∃ variant ∈ TypeNode.variants members, variant.HoldsRecord := by
        simpa using hmaking.isSome
      exact ⟨iff_of_true hclass hmet, fun hother => absurd hclass hother⟩

/-- Where nothing replaces the type of a field and it has not been resolved, the field is
typed by the union that it is. -/
theorem typedByUnion_of_resolveType {known after : Knowledge} {node : TypeNode} {path : Text}
    {members : List TypeNode} {field : Field} {ref : TypeRef} (hkind : owner.kind = .field)
    (hoverride : ∀ o, settings.override? owner.path ≠ .ok (some o))
    (hfresh : known.resolved.lookup address = none)
    (hunion : node.withoutPromise = .union "" path members) (hnullable : ¬node.IsNullable)
    (hrun : outcome (resolveType settings owner address node) known = (.ok ref, after))
    (htype : field.type = some ref) :
    TypedByUnion settings owner (TypeNode.variants members) field := by
  cases hfound : settings.override? owner.path with
  | error failure =>
      rw [outcome_resolveType_of_unreadable hfound hfresh] at hrun
      exact nomatch hrun
  | ok found =>
      cases found with
      | some override => exact absurd hfound (hoverride override)
      | none =>
          rw [outcome_resolveType_of_fresh hfound hfresh] at hrun
          have hgives : ∀ result,
              (outcome (convert settings owner address .outer false none node) known).1 =
                .ok result → field.type = some result.1 →
                TypedByUnion settings owner (TypeNode.variants members) field :=
            (gives_convert_fieldUnion hkind hunion hnullable field).result known
          generalize outcome (convert settings owner address .outer false none node) known = ended
            at hrun hgives
          rcases ended with ⟨failure | result, middle⟩
          · exact nomatch hrun
          · obtain rfl : result.1 = ref := Except.ok.inj (congrArg Prod.fst hrun)
            exact hgives result rfl htype

/-- Each property of a record whose type is, promises aside, an anonymous union that is not
nullable becomes a field that is typed by a class exactly if some variant holds a record.
Every other such field is typed by any object, and keeps a setter for each variant. -/
theorem convertFields_unions {known after : Knowledge} {className : Text} {position : Nat}
    {properties : List (Slot TypeNode)} {fields : List Field} (hclear : known.Clear address)
    (hrun : outcome (convertFields settings owner address className position properties) known =
      (.ok fields, after)) :
    List.Forall₂ (fun property field => ∀ path members,
      (∀ o, settings.override? property.path ≠ .ok (some o)) →
      property.type.withoutPromise = .union "" path members → ¬property.type.IsNullable →
      TypedByUnion settings (owner.property property.path property.name className)
        (TypeNode.variants members) field) properties fields := by
  replace hclear : ClearFrom address position known := .of_clear hclear
  induction properties generalizing position known fields with
  | nil =>
      obtain rfl : [] = fields := by simpa [convertFields] using congrArg Prod.fst hrun
      exact .nil
  | cons property rest ih =>
      obtain ⟨name, place, type, required, comment⟩ := property
      rw [convertFields] at hrun
      obtain ⟨ref, middle, htype, hrun⟩ := outcome_bind_ok hrun
      obtain ⟨others, last, hothers, hrun⟩ := outcome_bind_ok hrun
      obtain rfl : _ :: others = fields := by simpa using congrArg Prod.fst hrun
      have hlast : last = after := by simpa using congrArg Prod.snd hrun
      rw [hlast] at hothers
      have htype : outcome (resolveType settings (owner.property place name className)
          (position :: address) type) known = (.ok ref, middle) := htype
      have hmiddle : ClearFrom address (position + 1) middle := by
        have hkept : ClearFrom address (position + 1)
            (outcome (resolveType settings (owner.property place name className)
              (position :: address) type) known).2 :=
          resolveType_clearFrom hclear.succ
        rwa [htype] at hkept
      refine .cons (fun path members hoverride hunion hnullable => ?_) (ih hothers hmiddle)
      exact typedByUnion_of_resolveType rfl hoverride hclear.here.lookup hunion hnullable htype rfl

/-! ## An option that holds items -/

/-- The path of the option. -/
def itemPath : Text := "Page.add.options.item"

/-- The members of a union: a text, or a list of records. -/
def textOrItems : List TypeNode :=
  [.primitive "string" itemPath,
   .array itemPath (.record itemPath
     [⟨"x", "Page.add.options.item.x", .primitive "int" "Page.add.options.item.x", true, .str ""⟩])]

/-- The option is a text or a list of records. -/
def itemOption : Slot TypeNode :=
  ⟨"item", itemPath, .union "" itemPath textOrItems, false, .str ""⟩

/-- The owner of the options of the method `add`. -/
def addOptions : Owner := ⟨"Page.add.options", .param, "options", "add", "Page"⟩

/-- The fields that the options of the method `add` are resolved to. -/
def addFields : Except Failure (List Field) × Knowledge :=
  outcome (convertFields .defaults addOptions [0] "AddOptions" 0 [itemOption]) .empty

theorem override?_itemOption (o : Override) :
    Settings.defaults.override? itemOption.path ≠ .ok (some o) :=
  fun hfound => nomatch hfound

theorem withoutPromise_itemOption :
    itemOption.type.withoutPromise = .union "" itemPath textOrItems :=
  rfl

theorem not_isNullable_itemOption : ¬itemOption.type.IsNullable := by
  rw [TypeNode.isNullable_iff withoutPromise_itemOption]
  decide

theorem exists_addFields :
    ∃ item after, addFields = (.ok [item], after) ∧
      (Surface.fieldRef item).kind = .classType := by
  have hkinds : addFields.1.toOption.map (fun fields =>
      fields.map fun field => (Surface.fieldRef field).kind) = some [.classType] := by
    decide +kernel
  rcases hrun : addFields with ⟨failure | fields, after⟩
  · rw [hrun] at hkinds
    exact nomatch hkinds
  · rw [hrun] at hkinds
    have hkinds : fields.map (fun field => (Surface.fieldRef field).kind) = [.classType] :=
      Option.some.inj hkinds
    obtain ⟨item, rfl, hkind⟩ := List.map_eq_singleton_iff.mp hkinds
    exact ⟨item, after, rfl, hkind⟩

theorem convertFields_unions_item :
    ∃ item after, addFields = (.ok [item], after) ∧
      TypedByUnion .defaults (addOptions.property itemPath "item" "AddOptions")
        (TypeNode.variants textOrItems) item := by
  obtain ⟨item, after, hrun, -⟩ := exists_addFields
  have htyped := convertFields_unions (by simp [Knowledge.Clear, Knowledge.empty]) hrun
  rw [List.forall₂_cons] at htyped
  exact ⟨item, after, hrun, htyped.1 itemPath textOrItems override?_itemOption
    withoutPromise_itemOption not_isNullable_itemOption⟩

/-- The option is typed by the class of its items, although neither of its variants is a
record, and so it cannot be set to a text. -/
theorem item_typed_by_class :
    ∃ item after, addFields = (.ok [item], after) ∧
      (∀ o, Settings.defaults.override? itemOption.path ≠ .ok (some o)) ∧
      itemOption.type.withoutPromise = .union "" itemPath textOrItems ∧
      ¬itemOption.type.IsNullable ∧
      ¬((Surface.fieldRef item).kind = .classType ↔
        ∃ variant ∈ TypeNode.variants textOrItems, ∃ path properties,
          variant = .record path properties) := by
  obtain ⟨item, after, hrun, hkind⟩ := exists_addFields
  refine ⟨item, after, hrun, override?_itemOption, withoutPromise_itemOption,
    not_isNullable_itemOption, fun hiff => ?_⟩
  obtain ⟨variant, hmem, path, properties, rfl⟩ := hiff.mp hkind
  simp [TypeNode.variants, textOrItems] at hmem

end Resolving
end ApiBindings
