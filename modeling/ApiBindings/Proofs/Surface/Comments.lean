import ApiBindings.Generation
import ApiBindings.Proofs.Resolution.Comments
import ApiBindings.Proofs.Surface.Deduplication
import ApiBindings.Proofs.Surface.Run
/-!
# Surfaces of descriptions with different comments

Comments go from the description to the surface and nowhere else.  So two
descriptions that are alike up to comments have surfaces that are equal up to
comments, or fail for reasons of one family at the same path.
-/

namespace ApiBindings
namespace Surface

def ResolvedParam.uncommented (param : ResolvedParam) : ResolvedParam :=
  { param with comment := .null }

def BlockParam.uncommented (param : BlockParam) : BlockParam :=
  { param with comment := .null }

/-- The member as if no comments had been given. -/
def MemberInfo.uncommented (member : MemberInfo) : MemberInfo :=
  { member with comment := .str "", returnComment := .null }

def Overload.uncommented (overload : Overload) : Overload :=
  { overload with
    params := overload.params.map Param.uncommented
    comment := .str ""
    returnComment := .null }

def Listener.uncommented (listener : Listener) : Listener :=
  { listener with comment := .str "" }

def Interface.uncommented (interface : Interface) : Interface :=
  { interface with
    comment := .str ""
    listeners := interface.listeners.map Listener.uncommented
    methods := interface.methods.map Overload.uncommented
    nestedClasses := interface.nestedClasses.map Class.uncommented }

end Surface

/-- The surface with every comment replaced by one that says nothing. -/
def Surface.uncommented (surface : Surface) : Surface :=
  { surface with
    interfaces := surface.interfaces.map Surface.Interface.uncommented
    classes := surface.classes.map Surface.Class.uncommented }

namespace Surface

/-! ## Overloads -/

theorem blockParams_uncommented (choice : Option (Nat × TypeRef)) (position : Nat)
    (params : List ResolvedParam) :
    blockParams choice position (params.map ResolvedParam.uncommented) =
      (blockParams choice position params).map (List.map BlockParam.uncommented) := by
  induction params generalizing position with
  | nil => rfl
  | cons p rest ih =>
      have htype : ∀ choice, blockType choice p.uncommented = blockType choice p := fun _ => rfl
      simp only [List.map_cons, blockParams, htype, ih]
      generalize blockType _ p = type
      cases type with
      | error failure => rfl
      | ok type => cases blockParams choice (position + 1) rest <;> rfl

theorem filter_required_uncommented (params : List BlockParam) :
    (params.map BlockParam.uncommented).filter (·.required) =
      (params.filter (·.required)).map BlockParam.uncommented := by
  rw [List.filter_map]
  rfl

theorem omitting_uncommented (member : MemberInfo) (returnType : Json) (before : List BlockParam)
    (omitted : BlockParam) (after : List BlockParam) :
    omitting member.uncommented returnType (before.map BlockParam.uncommented) omitted.uncommented
        (after.map BlockParam.uncommented) =
      (omitting member returnType before omitted after).uncommented := by
  unfold omitting Overload.uncommented
  rw [filter_required_uncommented]
  simp [Function.comp_def, BlockParam.uncommented, BlockParam.declaration, Param.uncommented,
    MemberInfo.uncommented]

theorem defaultOverloads_uncommented (member : MemberInfo) (returnType : Json)
    (before params : List BlockParam) :
    defaultOverloads member.uncommented returnType (before.map BlockParam.uncommented)
        (params.map BlockParam.uncommented) =
      (defaultOverloads member returnType before params).map Overload.uncommented := by
  induction params generalizing before with
  | nil => rfl
  | cons p after ih =>
      have hbefore : (before ++ [p]).map BlockParam.uncommented =
          before.map BlockParam.uncommented ++ [p.uncommented] := by simp
      have hrequired : p.uncommented.required = p.required := rfl
      rw [List.map_cons, defaultOverloads, defaultOverloads, ← hbefore, ih, hrequired,
        omitting_uncommented, List.map_append]
      split <;> rfl

theorem overloadBlock_uncommented (member : MemberInfo) (returnType : Json)
    (params : List BlockParam) :
    overloadBlock member.uncommented returnType (params.map BlockParam.uncommented) =
      (overloadBlock member returnType params).map Overload.uncommented := by
  have hdefaults := defaultOverloads_uncommented member returnType [] params
  have hfull : fullOverload member.uncommented returnType (params.map BlockParam.uncommented) =
      (fullOverload member returnType params).uncommented := by
    simp [fullOverload, Overload.uncommented, Function.comp_def, BlockParam.uncommented,
      BlockParam.declaration, Param.uncommented, MemberInfo.uncommented]
  rw [List.map_nil] at hdefaults
  rw [overloadBlock, overloadBlock, hdefaults, hfull, List.map_append, List.map_singleton]

theorem blockChoices_uncommented (params : List ResolvedParam) :
    blockChoices (params.map ResolvedParam.uncommented) = blockChoices params := by
  have hdriving : drivingParam? (params.map ResolvedParam.uncommented) = drivingParam? params := by
    unfold drivingParam?
    rw [List.findIdx?_map]
    rfl
  unfold blockChoices
  rw [hdriving]
  cases drivingParam? params with
  | none => rfl
  | some driver =>
      dsimp only
      rw [List.getElem?_map]
      cases params[driver]? <;> rfl

theorem blocksFor_uncommented (member : MemberInfo) (returnType : Json)
    (params : List ResolvedParam) (choices : List (Option (Nat × TypeRef))) :
    blocksFor member.uncommented returnType (params.map ResolvedParam.uncommented) choices =
      (blocksFor member returnType params choices).map
        (List.map (List.map Overload.uncommented)) := by
  induction choices with
  | nil => rfl
  | cons choice rest ih =>
      rw [blocksFor, blocksFor, blockParams_uncommented, ih]
      cases blockParams choice 0 params with
      | error failure => rfl
      | ok block =>
          cases blocksFor member returnType params rest with
          | error failure => rfl
          | ok others =>
              have hblock := overloadBlock_uncommented member returnType block
              simp [bind, Except.bind, Except.map, pure, Except.pure, hblock]

theorem overloads_uncommented (member : MemberInfo) (returnType : TypeRef)
    (params : List ResolvedParam) :
    overloads member.uncommented returnType (params.map ResolvedParam.uncommented) =
      (overloads member returnType params).map (List.map Overload.uncommented) := by
  unfold overloads overloadBlocks
  rw [blockChoices_uncommented, blocksFor_uncommented]
  cases blocksFor member returnType.name params (blockChoices params) with
  | error failure => rfl
  | ok blocks => simp [bind, Except.bind, Except.map, pure, Except.pure, List.map_flatten]

theorem writtenOverloads_uncommented (member : MemberInfo) (params : List ResolvedParam)
    (signatures : List Json) :
    writtenOverloads member.uncommented (params.map ResolvedParam.uncommented) signatures =
      (writtenOverloads member params signatures).map Overload.uncommented := by
  induction signatures with
  | nil => rfl
  | cons signature rest ih =>
      cases rest with
      | nil =>
          simp [writtenOverloads, Overload.uncommented, MemberInfo.uncommented, Function.comp_def,
            ResolvedParam.uncommented, Param.uncommented]
      | cons second rest =>
          exact congrArg (List.cons _) ih

theorem listener_uncommented (member : MemberInfo) (type : TypeRef) :
    Listener.of member.uncommented type = (Listener.of member type).map Listener.uncommented := by
  unfold Listener.of
  cases Java.consumerOf type.name <;> rfl

/-! ## Classes -/

theorem declareFields_uncommented {comment comment' : Field → Json} {erase : Param → Param}
    (herase : ∀ (field : Field) (type : Json),
      Param.mk field.name type (comment' field.uncommented) =
        erase (Param.mk field.name type (comment field))) (fields : List Field) :
    declareFields comment' (fields.map Field.uncommented) =
      (declareFields comment fields).map (List.map erase) := by
  induction fields with
  | nil => rfl
  | cons field rest ih =>
      have htype : fieldType field.uncommented = fieldType field := rfl
      rw [List.map_cons, declareFields, declareFields, htype, ih]
      cases fieldType field with
      | error failure => rfl
      | ok type =>
          cases declareFields comment rest with
          | error failure => rfl
          | ok others =>
              exact congrArg (fun first => Except.ok (first :: others.map erase))
                (herase field type)

theorem fieldParams_uncommented (fields : List Field) :
    fieldParams (fields.map Field.uncommented) = fieldParams fields := by
  have hsame : declareFields (fun _ => .str []) (fields.map Field.uncommented) =
      (declareFields (fun _ => .str []) fields).map (List.map id) :=
    declareFields_uncommented (fun _ _ => rfl) fields
  unfold fieldParams
  rw [hsame]
  cases declareFields (fun _ => .str []) fields <;> simp [Except.map]

theorem filter_fields_uncommented (fields : List Field) :
    (fields.map Field.uncommented).filter (·.required) =
      (fields.filter (·.required)).map Field.uncommented := by
  rw [List.filter_map]
  rfl

theorem nestedBuilder?_uncommented (catalogue : Catalogue) (field : Field) :
    nestedBuilder? catalogue.uncommented field.uncommented = nestedBuilder? catalogue field := by
  have href : fieldRef field.uncommented = fieldRef field := rfl
  unfold nestedBuilder?
  rw [href]
  dsimp only
  split
  next => rfl
  next =>
    rw [Catalogue.lookUp_uncommented]
    cases catalogue.lookUp (fieldRef field).name with
    | error failure => rfl
    | ok found =>
        cases found with
        | none => rfl
        | some type =>
            cases type with
            | ofEnum type => rfl
            | ofClass nested =>
                have hnested : nested.uncommented.fields.filter (·.required) =
                    (nested.fields.filter (·.required)).map Field.uncommented :=
                  filter_fields_uncommented nested.fields
                simp only [Except.map, Option.map, NominalType.uncommented, bind, Except.bind,
                  hnested, fieldParams_uncommented, List.isEmpty_map]
                rfl

theorem fieldBuilders_uncommented (catalogue : Catalogue) (field : Field) :
    fieldBuilders catalogue.uncommented field.uncommented = fieldBuilders catalogue field := by
  unfold fieldBuilders
  rw [nestedBuilder?_uncommented]
  rfl

theorem buildersOf_uncommented (catalogue : Catalogue) (fields : List Field) :
    buildersOf catalogue.uncommented (fields.map Field.uncommented) =
      buildersOf catalogue fields := by
  induction fields with
  | nil => rfl
  | cons field rest ih =>
      rw [List.map_cons, buildersOf, buildersOf, fieldBuilders_uncommented, ih]
      rfl

theorem class_uncommented (catalogue : Catalogue) (type : ClassType) :
    Class.of catalogue.uncommented type.uncommented =
      (Class.of catalogue type).map Class.uncommented := by
  have hfields : declareFields Field.comment (type.fields.map Field.uncommented) =
      (declareFields Field.comment type.fields).map (List.map Param.uncommented) :=
    declareFields_uncommented (fun _ _ => rfl) type.fields
  have hreturn : type.uncommented.isReturnType = type.isReturnType := rfl
  unfold Class.of
  rw [ClassType.fields_uncommented, hfields, filter_fields_uncommented, fieldParams_uncommented,
    buildersOf_uncommented, hreturn]
  cases declareFields Field.comment type.fields with
  | error failure => rfl
  | ok fields =>
      cases type.isReturnType with
      | true => rfl
      | false =>
          cases fieldParams (type.fields.filter (·.required)) with
          | error failure => rfl
          | ok constructorParams => cases buildersOf catalogue type.fields <;> rfl

theorem classesOf_uncommented (catalogue : Catalogue) (types : List ClassType) :
    classesOf catalogue.uncommented (types.map ClassType.uncommented) =
      (classesOf catalogue types).map (List.map Class.uncommented) := by
  induction types with
  | nil => rfl
  | cons type rest ih =>
      rw [List.map_cons, classesOf, classesOf, class_uncommented, ih]
      cases Class.of catalogue type with
      | error failure => rfl
      | ok first => cases classesOf catalogue rest <;> rfl

/-! ## Interfaces -/

open Resolving (Plain)

variable {settings : Settings}

theorem plain_resolveParams (interface : ApiBindings.Interface) (member : Member)
    (address : Address) (position : Nat) (params : List (Slot TypeNode)) :
    Plain (List.map ResolvedParam.uncommented)
      (resolveParams settings interface member address position params)
      (resolveParams settings interface.uncommented member.uncommented address position
        (params.map Slot.uncommented)) := by
  induction params generalizing position with
  | nil => exact .pure rfl
  | cons param rest ih =>
      rw [List.map_cons, resolveParams, resolveParams]
      apply (Resolving.plain_resolveType param.type (paramOwner interface member param)
        (position :: address)).bind_id
      intro type
      apply (ih (position + 1)).bind
      intro others
      exact .pure rfl

theorem plain_declareMethod (interface : ApiBindings.Interface) (address : Address)
    (member : Member) :
    Plain (List.map Overload.uncommented)
      (declareMethod settings interface address member)
      (declareMethod settings interface.uncommented address member.uncommented) := by
  have hresolve : Plain id
      (resolve settings (memberOwner interface member .method) (0 :: address) member.type)
      (resolve settings (memberOwner interface member .method) (0 :: address)
        (member.type.map TypeNode.uncommented)) := Resolving.plain_resolve member.type _ _
  have hparams : Plain (List.map ResolvedParam.uncommented)
      (resolveParams settings interface member address 1 member.params)
      (resolveParams settings interface.uncommented member.uncommented address 1
        (member.params.map Slot.uncommented)) := plain_resolveParams interface member address 1 _
  unfold declareMethod
  apply (Plain.ofExcept_id (settings.signatures member.path)).bind_id
  intro signatures
  cases signatures with
  | suppressed => exact .pure rfl
  | written texts =>
      apply hresolve.bind_id
      intro returnType
      apply hparams.bind
      intro params
      exact .pure (writtenOverloads_uncommented (.of member) params texts)
  | malformed =>
      apply hresolve.bind_id
      intro returnType
      apply hparams.bind
      intro params
      exact .throw _
  | derived =>
      apply hresolve.bind_id
      intro returnType
      apply hparams.bind
      intro params
      exact .ofExcept (overloads_uncommented (.of member) returnType params)

/-- What a member adds to its interface, without comments. -/
def uncommentedParts : List Listener × List Overload → List Listener × List Overload :=
  Prod.map (List.map Listener.uncommented) (List.map Overload.uncommented)

theorem plain_declareMember (interface : ApiBindings.Interface) (address : Address)
    (member : Member) :
    Plain uncommentedParts (declareMember settings interface address member)
      (declareMember settings interface.uncommented address member.uncommented) := by
  have hmethod : Plain uncommentedParts
      (do
        let methods ← declareMethod settings interface address member
        pure ([], methods))
      (do
        let methods ← declareMethod settings interface.uncommented address member.uncommented
        pure ([], methods)) := by
    apply (plain_declareMethod interface address member).bind
    intro methods
    exact .pure rfl
  have hkind : member.uncommented.kind = member.kind := rfl
  rw [declareMember, declareMember, hkind]
  cases member.kind with
  | method => exact hmethod
  | property => exact hmethod
  | event =>
      have htype : Plain id
          (resolve settings (memberOwner interface member .event) (0 :: address) member.type)
          (resolve settings (memberOwner interface member .event) (0 :: address)
            (member.type.map TypeNode.uncommented)) := Resolving.plain_resolve member.type _ _
      apply htype.bind_id
      intro type
      have hlistener : Plain Listener.uncommented
          (Resolving.ofExcept (Listener.of (.of member) type))
          (Resolving.ofExcept (Listener.of (.of member.uncommented) type)) :=
        .ofExcept (listener_uncommented (.of member) type)
      apply hlistener.bind
      intro listener
      exact .pure rfl

theorem plain_declareMembers (interface : ApiBindings.Interface) (address : Address)
    (position : Nat) (members : List Member) :
    Plain uncommentedParts
      (declareMembers settings interface address position members)
      (declareMembers settings interface.uncommented address position
        (members.map Member.uncommented)) := by
  induction members generalizing position with
  | nil => exact .pure rfl
  | cons member rest ih =>
      rw [List.map_cons, declareMembers_cons, declareMembers_cons]
      apply (plain_declareMember interface (position :: address) member).bind
      intro own
      apply (ih (position + 1)).bind
      intro others
      apply Plain.pure
      simp [uncommentedParts]

theorem plain_declareInterface (address : Address) (interface : ApiBindings.Interface) :
    Plain Interface.uncommented (declareInterface settings address interface)
      (declareInterface settings address interface.uncommented) := by
  unfold declareInterface
  apply (Plain.ofExcept_id (supertypes settings interface)).bind_id
  intro supertypes
  apply (plain_declareMembers interface address 0 interface.members).bind
  rintro ⟨listeners, methods⟩
  apply Plain.get_bind
  intro known
  have hclasses : classesOf known.uncommented.catalogue
      (known.uncommented.catalogue.localClasses interface.name) =
        (classesOf known.catalogue (known.catalogue.localClasses interface.name)).map
          (List.map Class.uncommented) := by
    have hlocal : known.uncommented.catalogue.localClasses interface.name =
        (known.catalogue.localClasses interface.name).map ClassType.uncommented :=
      known.catalogue.localClasses_uncommented interface.name
    rw [hlocal]
    exact classesOf_uncommented known.catalogue _
  apply (Plain.ofExcept hclasses).bind
  intro nestedClasses
  exact .pure rfl

theorem plain_declareInterfaces (position : Nat) (interfaces : List ApiBindings.Interface) :
    Plain (List.map Interface.uncommented) (declareInterfaces settings position interfaces)
      (declareInterfaces settings position
        (interfaces.map ApiBindings.Interface.uncommented)) := by
  induction interfaces generalizing position with
  | nil => exact .pure rfl
  | cons interface rest ih =>
      rw [List.map_cons, declareInterfaces, declareInterfaces]
      apply (plain_declareInterface [position] interface).bind
      intro first
      apply (ih (position + 1)).bind
      intro others
      exact .pure rfl

theorem globalClasses_uncommented (catalogue : Catalogue) :
    catalogue.uncommented.globalClasses = catalogue.globalClasses.map ClassType.uncommented := by
  unfold Catalogue.globalClasses Catalogue.uncommented
  induction catalogue.globals with
  | nil => rfl
  | cons type rest ih =>
      cases type with
      | ofClass type => exact congrArg (type.uncommented :: ·) ih
      | ofEnum type => exact ih

theorem globalEnums_uncommented (catalogue : Catalogue) :
    catalogue.uncommented.globalEnums = catalogue.globalEnums := by
  unfold Catalogue.globalEnums Catalogue.uncommented
  induction catalogue.globals with
  | nil => rfl
  | cons type rest ih =>
      cases type with
      | ofClass type => exact ih
      | ofEnum type => exact congrArg (type :: ·) ih

theorem plain_declaring (interfaces : List ApiBindings.Interface) :
    Plain Surface.uncommented (declaring settings interfaces)
      (declaring settings (interfaces.map ApiBindings.Interface.uncommented)) := by
  unfold declaring
  apply (plain_declareInterfaces 0 interfaces).bind
  intro interfaces
  apply Plain.get_bind
  intro known
  have hclasses : classesOf known.uncommented.catalogue
      known.uncommented.catalogue.globalClasses =
        (classesOf known.catalogue known.catalogue.globalClasses).map
          (List.map Class.uncommented) := by
    have hglobal : known.uncommented.catalogue.globalClasses =
        known.catalogue.globalClasses.map ClassType.uncommented :=
      globalClasses_uncommented known.catalogue
    rw [hglobal]
    exact classesOf_uncommented known.catalogue _
  have henums : known.uncommented.catalogue.globalEnums = known.catalogue.globalEnums :=
    globalEnums_uncommented known.catalogue
  apply (Plain.ofExcept hclasses).bind
  intro classes
  apply Plain.pure
  simp only [Surface.uncommented, henums]

/-- Without its comments a description has the surface that it has with them,
without the comments. -/
theorem declare_uncommented (interfaces : List ApiBindings.Interface) :
    declare settings (interfaces.map ApiBindings.Interface.uncommented) =
      (declare settings interfaces).map Surface.uncommented :=
  congrArg Prod.fst (plain_declaring interfaces .empty)

end Surface

namespace Generation

open Availability (Alike AlikeEntries)

/-- Comments have no part in the surface: two descriptions that are alike up to
the texts of comments have surfaces that are equal without their comments, or
both have none, for reasons of one family at the same path. -/
theorem surface_comments (settings : Settings) (language : Text) (commandLine : Invocation)
    (schema schema' : Json) (hschema : Alike .comments language schema schema') :
    Likewise Failure.SameSource (fun a b => a.uncommented = b.uncommented)
      (Generation.surface settings language commandLine schema)
      (Generation.surface settings language commandLine schema') := by
  by_cases hlanguage : language = "java"
  · subst hlanguage
    have hrestrict : Likewise Failure.SameSource (fun a b => Alike .comments "java" a.1 b.1)
        (Availability.restrict "java" schema) (Availability.restrict "java" schema') := by
      have hrun : Availability.RestrictAlike .comments "java" schema schema' :=
        hschema.restrict fun _ => rfl
      exact hrun.imp (fun f g hfails => hfails rfl) fun a b hends => hends.1
    have hsame : ∀ {α : Type} (x : Except Failure α), Likewise Failure.SameSource Eq x x :=
      .refl .refl fun _ => rfl
    apply Likewise.bind (hsame (checkLanguage "java"))
    rintro _ _ rfl
    apply Likewise.bind hrestrict
    rintro ⟨restricted, _⟩ ⟨restricted', _⟩ hrestricted
    apply Likewise.bind (Schema.read_alike hrestricted)
    intro interfaces interfaces' hinterfaces
    have hplain : (Surface.declare settings interfaces).map Surface.uncommented =
        (Surface.declare settings interfaces').map Surface.uncommented := by
      rw [← Surface.declare_uncommented, ← Surface.declare_uncommented, hinterfaces]
    apply Likewise.bind (Likewise.of_map .refl hplain)
    intro surface surface' hsurface
    apply Likewise.bind (hsame (banner settings commandLine))
    rintro text _ rfl
    exact .ok (congrArg (fun surface => { surface with banner := text }) hsurface)
  · have hrefused : checkLanguage language =
        .error ((Cause.unknownLanguage language).atPath []) := if_neg hlanguage
    have hfails : ∀ schema, Generation.surface settings language commandLine schema =
        .error ((Cause.unknownLanguage language).atPath []) := by
      intro schema
      rw [Generation.surface, hrefused]
      rfl
    rw [hfails, hfails]
    exact .error (.refl _)

/-- A page with a method that says this about itself, its result and its parameter. -/
def sayingPage (said : Text) : Json :=
  .arr [.obj [("name", .str "Page"), ("comment", .str said), ("members", .arr [.obj [
    ("name", .str "click"), ("kind", .str "method"), ("comment", .str said),
    ("returnComment", .str said),
    ("args", .arr [.obj [("name", .str "selector"), ("comment", .str said),
      ("required", .bool true), ("type", .obj [("name", .str "string")])]])]])]]

theorem alike_sayingPage (said said' : Text) :
    Alike .comments "java" (sayingPage said) (sayingPage said') := by
  have hsame : ∀ {key value} {rest rest' : List (Text × Json)},
      AlikeEntries .comments "java" rest rest' →
      AlikeEntries .comments "java" ((key, value) :: rest) ((key, value) :: rest') :=
    fun hrest => .cons (.refl _) (fun _ _ => rfl) hrest
  have hselector : AlikeEntries .comments "java"
      [("name", .str "selector"), ("comment", .str said), ("required", .bool true),
        ("type", .obj [("name", .str "string")])]
      [("name", .str "selector"), ("comment", .str said'), ("required", .bool true),
        ("type", .obj [("name", .str "string")])] :=
    hsame (.comment rfl rfl (.refl _))
  have hmember : AlikeEntries .comments "java"
      [("name", .str "click"), ("kind", .str "method"), ("comment", .str said),
        ("returnComment", .str said), ("args", .arr [.obj [("name", .str "selector"),
          ("comment", .str said), ("required", .bool true),
          ("type", .obj [("name", .str "string")])]])]
      [("name", .str "click"), ("kind", .str "method"), ("comment", .str said'),
        ("returnComment", .str said'), ("args", .arr [.obj [("name", .str "selector"),
          ("comment", .str said'), ("required", .bool true),
          ("type", .obj [("name", .str "string")])]])] :=
    hsame (hsame (.comment rfl rfl (.comment rfl rfl
      (.cons (.arr (.cons (.obj hselector) .nil)) (fun _ h => nomatch h) .nil))))
  exact .arr (.cons (.obj (hsame (.comment rfl rfl
    (.cons (.arr (.cons (.obj hmember) .nil)) (fun _ h => nomatch h) .nil)))) .nil)

theorem surface_comments_sayingPage :
    (Generation.surface .defaults "java" (.ok []) (sayingPage "Clicks.")).isOk = true ∧
      Likewise Failure.SameSource (fun a b => a.uncommented = b.uncommented)
        (Generation.surface .defaults "java" (.ok []) (sayingPage "Clicks."))
        (Generation.surface .defaults "java" (.ok []) (sayingPage "Presses.")) := by
  have hok : (Generation.surface .defaults "java" (.ok []) (sayingPage "Clicks.")).isOk = true := by
    rfl
  exact ⟨hok, surface_comments .defaults "java" (.ok []) _ _ (alike_sayingPage _ _)⟩

end Generation
end ApiBindings
