import ApiBindings.Generation
import ApiBindings.Proofs.Resolution.Diagnosis
import ApiBindings.Proofs.Surface.Class
import ApiBindings.Proofs.Surface.Contract
/-!
# Every failure has an explanation

A run that makes no surface out of a description says why.  Restricting and
reading explain their failures whatever the description is.  Declaring does so
with settings of the documented types, because then all that it boxes and looks
up are texts; and the declarations of classes cannot fail at all.

What is left are the two places where nothing is checked: members that are no
collection, and a call of the command that cannot be told.
-/

namespace ApiBindings

open Resolving (Explains Meets outcome keptContract explains_resolve explains_resolveType
  meets_resolve_spelled meets_resolveType_spelled)

namespace Surface

/-! ## Classes -/

theorem exists_fieldType {field : Field} (href : (fieldRef field).IsSpelled) :
    ∃ type, fieldType field = .ok type := by
  rcases Java.exists_containerOf "Optional" [(fieldRef field).name] (by simpa using href) with
    ⟨spelling, hspelling⟩
  rcases href with ⟨text, htext⟩
  have hoptional : Java.optionalOf (fieldRef field).name = .ok spelling := hspelling
  unfold fieldType
  dsimp only
  rw [hoptional, htext]
  cases (fieldRef field).isNullable <;> cases field.required <;> exact ⟨_, rfl⟩

theorem exists_fieldType_of_typedBy {type : ClassType} (htype : type.TypedBy TypeRef.IsSpelled) :
    ∀ field ∈ type.fields, ∃ spelled, fieldType field = .ok spelled := by
  intro field hfield
  rcases htype field hfield with ⟨ref, href, hspelled⟩
  apply exists_fieldType
  rw [fieldRef, href]
  exact hspelled

/-- Classes are declared after all of their types are known, and from these alone. -/
theorem exists_classesOf_of_keeps {known : Knowledge} (hknown : known.Keeps TypeRef.IsSpelled)
    {types : List ClassType} (htypes : ∀ type ∈ types, type.TypedBy TypeRef.IsSpelled) :
    ∃ classes, classesOf known.catalogue types = .ok classes := by
  have hglobals : Fieldable known.catalogue := fun type htype =>
    exists_fieldType_of_typedBy (hknown.globals type htype).typed
  exact exists_classesOf hglobals fun type htype => exists_fieldType_of_typedBy (htypes type htype)

/-! ## Overloads -/

theorem diagnosed_blockType (choice : Option TypeRef) (p : ResolvedParam) :
    Diagnosed (blockType choice p) := by
  unfold blockType
  split
  next => exact .ok _
  next =>
    split
    next => exact .ok _
    next => exact .ok _
    next => exact .error (Cause.isDiagnosed_atPath _ _)

theorem diagnosed_blockParams (choice : Option (Nat × TypeRef)) (position : Nat)
    (params : List ResolvedParam) : Diagnosed (blockParams choice position params) := by
  induction params generalizing position with
  | nil => exact .ok _
  | cons p rest ih =>
      unfold blockParams
      apply (diagnosed_blockType _ p).bind
      intro type _
      exact (ih (position + 1)).bind fun _ _ => .ok _

theorem diagnosed_blocksFor (member : MemberInfo) (returnType : Json)
    (params : List ResolvedParam) (choices : List (Option (Nat × TypeRef))) :
    Diagnosed (blocksFor member returnType params choices) := by
  induction choices with
  | nil => exact .ok _
  | cons choice rest ih =>
      unfold blocksFor
      apply (diagnosed_blockParams choice 0 params).bind
      intro block _
      exact ih.bind fun _ _ => .ok _

theorem diagnosed_overloads (member : MemberInfo) (returnType : TypeRef)
    (params : List ResolvedParam) : Diagnosed (overloads member returnType params) :=
  (diagnosed_blocksFor member returnType.name params _).bind fun _ _ => .ok _

/-! ## Members -/

variable {settings : Settings} (hsettings : settings.Documented)
  {interface : ApiBindings.Interface} {address : Address} {known : Knowledge}

include hsettings

theorem exists_signatures (path : Text) :
    ∃ signatures, settings.signatures path = .ok signatures ∧ signatures ≠ .malformed := by
  rcases hsettings.customSignatures with ⟨entries, htable, hentries⟩
  unfold Settings.signatures Settings.lookup
  rw [htable]
  cases hfound : Text.find? path entries with
  | none => exact ⟨.derived, by simp [hfound, bind, Except.bind, pure, Except.pure]⟩
  | some value =>
      rcases hentries _ (Json.mem_of_find? hfound) with ⟨texts, heq, -⟩
      have hvalue : value = .arr texts := heq
      subst hvalue
      simp only [hfound, bind, Except.bind, pure, Except.pure, Except.ok.injEq, exists_eq_left']
      cases texts <;> simp [Settings.Signatures.ofJson, Json.isNull, Json.isTruthy]

theorem exists_supertypes (interface : ApiBindings.Interface) :
    ∃ names, supertypes settings interface = .ok names := by
  rcases hsettings.allowedBaseInterfaces with ⟨bases, hbases, -⟩
  rcases hsettings.autoCloseableInterfaces with ⟨closeables, hcloseables, -⟩
  unfold supertypes Settings.keepsSupertype Settings.isAutoCloseable
  rw [hbases, hcloseables]
  split <;> exact ⟨_, rfl⟩

theorem explains_resolveParams {member : Member} (position : Nat)
    (params : List (Slot TypeNode)) (hknown : known.Keeps TypeRef.IsSpelled) :
    Explains (resolveParams settings interface member address position params) known := by
  induction params generalizing position known with
  | nil => exact .pure _
  | cons param rest ih =>
      unfold resolveParams
      apply (explains_resolveType hsettings param.type hknown).bind_meets
        (meets_resolveType_spelled hsettings param.type hknown)
      intro type after hafter _
      apply (ih (position + 1) hafter).bind
      intro others last _
      exact .pure _

theorem explains_declareMethod {member : Member} (hknown : known.Keeps TypeRef.IsSpelled) :
    Explains (declareMethod settings interface address member) known := by
  rcases exists_signatures hsettings member.path with ⟨given, hgiven, hwellformed⟩
  unfold declareMethod
  apply Explains.ofExcept_bind (hgiven ▸ .ok given)
  intro signatures hsignatures
  have hsame : given = signatures := Except.ok.inj (hgiven.symm.trans hsignatures)
  subst hsame
  split
  next => exact .pure _
  next =>
    apply (explains_resolve hsettings member.type hknown).bind_meets
      (meets_resolve_spelled hsettings member.type hknown)
    intro returnType after hafter _
    apply (explains_resolveParams hsettings 1 member.params hafter).bind
    intro params last _
    split
    next => exact .pure _
    next => exact absurd rfl hwellformed
    next => exact .ofExcept (diagnosed_overloads _ _ _)

theorem explains_declareMember {member : Member} (hknown : known.Keeps TypeRef.IsSpelled) :
    Explains (declareMember settings interface address member) known := by
  unfold declareMember
  split
  next =>
    apply (explains_resolve hsettings member.type hknown).bind_meets
      (meets_resolve_spelled hsettings member.type hknown)
    intro type after _ htype
    have hlistener : ∃ listener, Listener.of (.of member) type = .ok listener := by
      rcases Java.exists_containerOf "Consumer" [type.name] (by simpa using htype) with
        ⟨handlerType, hhandler⟩
      have hconsumer : Java.consumerOf type.name = .ok handlerType := hhandler
      rw [Listener.of, hconsumer]
      exact ⟨_, rfl⟩
    rcases hlistener with ⟨listener, hlistener⟩
    exact .ofExcept_bind (hlistener ▸ .ok listener) fun listener _ => .pure _
  next =>
    apply (explains_declareMethod hsettings hknown).bind
    intro methods after _
    exact .pure _

theorem explains_declareMembers (position : Nat) (members : List Member)
    (hknown : known.Keeps TypeRef.IsSpelled) :
    Explains (declareMembers settings interface address position members) known := by
  let C := keptContract hsettings.kept_spelled
  induction members generalizing position known with
  | nil => exact .pure _
  | cons member rest ih =>
      rw [declareMembers_cons]
      have hmeets : Meets (declareMember settings interface (position :: address) member)
          (Knowledge.Keeps TypeRef.IsSpelled) (fun _ _ => True) known :=
        C.meets_declareMember (fun _ _ _ => trivial) hknown
      apply (explains_declareMember hsettings hknown).bind_meets hmeets
      intro own after hafter _
      apply (ih (position + 1) hafter).bind
      intro others last _
      exact .pure _

theorem explains_declareInterface (hknown : known.Keeps TypeRef.IsSpelled) :
    Explains (declareInterface settings address interface) known := by
  let C := keptContract hsettings.kept_spelled
  rcases exists_supertypes hsettings interface with ⟨names, hnames⟩
  have hmeets : Meets (declareMembers settings interface address 0 interface.members)
      (Knowledge.Keeps TypeRef.IsSpelled) (fun _ _ => True) known :=
    C.meets_declareMembers (fun _ _ _ _ => trivial) hknown
  unfold declareInterface
  apply Explains.ofExcept_bind (hnames ▸ .ok names)
  intro names _
  apply (explains_declareMembers hsettings 0 interface.members hknown).bind_meets hmeets
  intro members after hafter _
  apply Explains.get_bind
  rcases exists_classesOf_of_keeps hafter (hafter.locals interface.name) with ⟨nested, hnested⟩
  exact .ofExcept_bind (hnested ▸ .ok nested) fun nested _ => .pure _

theorem explains_declareInterfaces (position : Nat) (interfaces : List ApiBindings.Interface)
    (hknown : known.Keeps TypeRef.IsSpelled) :
    Explains (declareInterfaces settings position interfaces) known := by
  let C := keptContract hsettings.kept_spelled
  induction interfaces generalizing position known with
  | nil => exact .pure _
  | cons interface rest ih =>
      have hmeets : Meets (declareInterface settings [position] interface)
          (Knowledge.Keeps TypeRef.IsSpelled) (fun _ _ => True) known :=
        C.meets_declareInterface (fun _ _ _ _ => trivial) hknown
      unfold declareInterfaces
      apply (explains_declareInterface hsettings hknown).bind_meets hmeets
      intro first after hafter _
      apply (ih (position + 1) hafter).bind
      intro others last _
      exact .pure _

theorem diagnosed_declare (interfaces : List ApiBindings.Interface) :
    Diagnosed (declare settings interfaces) := by
  let C := keptContract hsettings.kept_spelled
  have hknown : Knowledge.empty.Keeps TypeRef.IsSpelled := Knowledge.keeps_empty
  have hmeets : Meets (declareInterfaces settings 0 interfaces)
      (Knowledge.Keeps TypeRef.IsSpelled) (fun _ _ => True) .empty :=
    C.meets_declareInterfaces (fun _ _ => trivial) hknown
  have hdeclaring : Explains (declaring settings interfaces) .empty := by
    unfold declaring
    apply (explains_declareInterfaces hsettings 0 interfaces hknown).bind_meets hmeets
    intro declared after hafter _
    apply Explains.get_bind
    have htypes : ∀ type ∈ after.catalogue.globalClasses, type.TypedBy TypeRef.IsSpelled :=
      fun type htype => (hafter.globals type (mem_globalClasses.mp htype)).typed
    rcases exists_classesOf_of_keeps hafter htypes with ⟨classes, hclasses⟩
    exact .ofExcept_bind (hclasses ▸ .ok classes) fun classes _ => .pure _
  exact hdeclaring

end Surface

namespace Generation

theorem diagnosed_checkLanguage (language : Text) : Diagnosed (checkLanguage language) := by
  unfold checkLanguage
  split
  next => exact .ok _
  next => exact .error (Cause.isDiagnosed_atPath _ _)

theorem restrict_of_checkLanguage {language : Text} (hlanguage : checkLanguage language = .ok ())
    (schema : Json) : Availability.restrict language schema =
      Availability.restrictAt language [] schema := by
  have hjava : language = "java" := by
    by_contra hother
    simp [checkLanguage, hother] at hlanguage
  have hword : Availability.isEntryWord language = false := by
    rw [hjava]
    decide
  simp [Availability.restrict, hword, Availability.restrictTree]

theorem banner_error {settings : Settings} {commandLine : Invocation} {failure : Failure}
    (hbanner : banner settings commandLine = .error failure) :
    ∃ fault, commandLine = .error fault ∧ failure = .refused fault := by
  unfold banner at hbanner
  split at hbanner
  next =>
    split at hbanner
    next => cases hbanner
    next fault =>
      cases hbanner
      exact ⟨fault, rfl, rfl⟩
  next => cases hbanner

theorem surface_error {settings : Settings} (hsettings : settings.Documented) {language : Text}
    {commandLine : Invocation} {schema : Json} {failure : Failure}
    (hrun : surface settings language commandLine schema = .error failure) :
    failure.IsDiagnosed ∨ (failure = .wrongKind ∧ Schema.HasPartlessMembers schema) ∨
      ∃ fault, commandLine = .error fault ∧ failure = .refused fault := by
  unfold surface at hrun
  rcases bind_error_cases hrun with hlanguage | ⟨_, hlanguage, hrun⟩
  · exact .inl (diagnosed_checkLanguage language failure hlanguage)
  rw [restrict_of_checkLanguage hlanguage] at hrun
  rcases bind_error_cases hrun with hrestricted | ⟨⟨restricted, dropped⟩, hrestricted, hrun⟩
  · exact .inl (Availability.diagnosed_restrictAt schema failure hrestricted)
  rcases bind_error_cases hrun with hread | ⟨interfaces, hread, hrun⟩
  · rcases Schema.read_error hread with hdiagnosed | ⟨hkind, hpartless⟩
    · exact .inl hdiagnosed
    · exact .inr (.inl ⟨hkind,
        Availability.hasPartlessMembers_of_restrictAt hrestricted hpartless⟩)
  rcases bind_error_cases hrun with hdeclare | ⟨declared, -, hrun⟩
  · exact .inl (Surface.diagnosed_declare hsettings interfaces failure hdeclare)
  rcases bind_error_cases hrun with hbanner | ⟨text, -, hdone⟩
  · exact .inr (.inr (banner_error hbanner))
  · cases hdone

/-- With settings of the documented types a description is either declared or
diagnosed, whatever it is, but for members that are no collection.  The command
must be one whose call can be told. -/
theorem surface_diagnosed {settings : Settings} (hsettings : settings.Documented)
    (language : Text) (commandLine : Invocation) (schema : Json) :
    (∃ declared, surface settings language commandLine schema = .ok declared) ∨
      (∃ diagnosis, surface settings language commandLine schema =
        .error (.diagnosed diagnosis)) ∨
      (surface settings language commandLine schema = .error .wrongKind ∧
        Schema.HasPartlessMembers schema) ∨
      ∃ fault, commandLine = .error fault ∧
        surface settings language commandLine schema = .error (.refused fault) := by
  cases hrun : surface settings language commandLine schema with
  | ok declared => exact .inl ⟨declared, rfl⟩
  | error failure =>
      rcases surface_error hsettings hrun with
        ⟨diagnosis, heq⟩ | ⟨heq, hpartless⟩ | ⟨fault, hcall, heq⟩
      · exact .inr (.inl ⟨diagnosis, congrArg Except.error heq⟩)
      · exact .inr (.inr (.inl ⟨congrArg Except.error heq, hpartless⟩))
      · exact .inr (.inr (.inr ⟨fault, hcall, congrArg Except.error heq⟩))

/-- A page whose members are left open. -/
def openPage : Json :=
  .arr [.obj [("name", .str "Page"), ("members", .null)]]

theorem surface_diagnosed_openPage :
    Settings.defaults.Documented ∧
      surface .defaults "java" (.ok "run") openPage = .error .wrongKind ∧
      Schema.HasPartlessMembers openPage := by
  have hrun : surface .defaults "java" (.ok "run") openPage = .error .wrongKind := rfl
  rcases surface_diagnosed Settings.Documented.defaults "java" (.ok "run") openPage with
    ⟨declared, hdeclared⟩ | ⟨diagnosis, hdiagnosed⟩ | ⟨-, hpartless⟩ | ⟨fault, hcall, -⟩
  · rw [hrun] at hdeclared
    cases hdeclared
  · rw [hrun] at hdiagnosed
    cases hdiagnosed
  · exact ⟨.defaults, hrun, hpartless⟩
  · cases hcall

end Generation
end ApiBindings
