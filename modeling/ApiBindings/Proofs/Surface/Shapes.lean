import ApiBindings.Proofs.Surface.Construction
/-!
# Shapes that account for fields

The declaration of a class lists its fields, takes the required ones in its
constructor and sets the optional ones.  `DeclaredAs` says how a field is spelled,
`SetBy` what the setters of an optional field are, and `Accounts` puts both
together for a class: every field is found in it, at one place or another, with
the one exception of an optional field whose type is a union that nothing is left
of.  Such a field has no setter.
-/

namespace ApiBindings

open Resolving (outcome)

namespace Surface

/-! ## Fields -/

/-- How a field is declared: as an optional one if null is among its values, and so that it
can be left unset if it is not required. -/
inductive DeclaredAs (field : Field) : Json → Prop
  | nullable {spelling : Text} (hnullable : (fieldRef field).isNullable = true)
      (hspelling : Java.optionalOf (fieldRef field).name = .ok spelling) :
    DeclaredAs field (.str spelling)
  | required (hnullable : (fieldRef field).isNullable = false) (hrequired : field.required = true) :
    DeclaredAs field (fieldRef field).name
  | optional {type : Json} (hnullable : (fieldRef field).isNullable = false)
      (hrequired : field.required = false) (hbox : Java.box (fieldRef field).name = .ok type) :
    DeclaredAs field type

theorem declaredAs_of_fieldType {field : Field} {type : Json} (htype : fieldType field = .ok type) :
    DeclaredAs field type := by
  unfold fieldType at htype
  cases hnullable : (fieldRef field).isNullable with
  | true =>
      cases hspelling : Java.optionalOf (fieldRef field).name with
      | error failure => simp [hnullable, hspelling, bind, Except.bind] at htype
      | ok spelling =>
          simp only [hnullable, hspelling, if_true, bind, Except.bind, pure, Except.pure,
            Except.ok.injEq] at htype
          exact htype ▸ .nullable hnullable hspelling
  | false =>
      simp only [hnullable, Bool.false_eq_true, if_false, bind, Except.bind] at htype
      cases hrequired : field.required with
      | true =>
          obtain rfl : (fieldRef field).name = type := by
            simpa [hrequired, pure, Except.pure] using htype
          exact .required hnullable hrequired
      | false =>
          rw [hrequired, if_neg Bool.false_ne_true] at htype
          exact .optional hnullable hrequired htype

/-- A field is listed by its name as it is declared, and with what is said of it. -/
structure Listed (field : Field) (param : Param) : Prop where
  name : param.name = field.name
  type : DeclaredAs field param.type
  comment : param.comment = field.comment

theorem listed_of_declareFields {fields : List Field} {params : List Param}
    (hparams : declareFields Field.comment fields = .ok params) :
    List.Forall₂ Listed fields params := by
  induction fields generalizing params with
  | nil =>
      obtain rfl : [] = params := by simpa [declareFields] using hparams
      exact .nil
  | cons field rest ih =>
      obtain ⟨type, others, htype, hothers, rfl⟩ := declareFields_cons_ok hparams
      exact .cons ⟨rfl, declaredAs_of_fieldType htype, rfl⟩ (ih hothers)

/-- The required ones among some fields as they are declared in a class, without comments. -/
def requiredParams (fields : List Field) (declared : List Param) : List Param :=
  ((fields.zip declared).filter (·.1.required)).map fun pair => { pair.2 with comment := .str [] }

theorem eq_requiredParams {comment : Field → Json} {fields : List Field}
    {declared params : List Param} (hdeclared : declareFields comment fields = .ok declared)
    (hparams : fieldParams (fields.filter (·.required)) = .ok params) :
    params = requiredParams fields declared := by
  induction fields generalizing declared params with
  | nil => simpa [fieldParams, declareFields, requiredParams, eq_comm] using hparams
  | cons field rest ih =>
      obtain ⟨type, others, htype, hothers, rfl⟩ := declareFields_cons_ok hdeclared
      rw [List.filter_cons] at hparams
      cases hrequired : field.required with
      | false =>
          rw [hrequired, if_neg Bool.false_ne_true] at hparams
          simpa [requiredParams, hrequired] using ih hothers hparams
      | true =>
          rw [hrequired, if_pos rfl, fieldParams] at hparams
          obtain ⟨type', others', htype', hothers', rfl⟩ := declareFields_cons_ok hparams
          obtain rfl : type = type' := Except.ok.inj (htype.symm.trans htype')
          simpa [requiredParams, hrequired] using ih hothers hothers'

/-! ## Setters -/

/-- These setters set an optional field.  The direct ones among them, which name no class, take
its value and store it as an optional one exactly if the field is declared so; only a class that
the settings name by null cannot be told from none.  There is a direct one unless the type of the
field is a union without variants. -/
structure SetBy (field : Field) (setters : List Builder) : Prop where
  sets : ∀ b ∈ setters, b.field = field.name
  direct : (fieldRef field).name ≠ .null → ∀ b ∈ setters, b.nestedClass = .null →
    b.params.map Param.name = [field.name] ∧ b.wrapsOptional = (fieldRef field).isNullable
  exists_direct_iff : (∃ b ∈ setters, b.nestedClass = .null ∧
      b.wrapsOptional = (fieldRef field).isNullable) ↔
    ¬((fieldRef field).isUnion = true ∧ (fieldRef field).variants = [])

variable {catalogue : Catalogue}

theorem setterTypes_eq_nil_iff {field : Field} :
    field.setterTypes = [] ↔ (fieldRef field).isUnion = true ∧ (fieldRef field).variants = [] := by
  unfold Field.setterTypes
  cases (fieldRef field).isUnion <;> simp

/-- A class is looked up by null only if null is its name. -/
theorem eq_null_of_global? {name : Json} {nested : ClassType}
    (hfound : catalogue.global? name = some (.ofClass nested)) (hnull : nested.name = .null) :
    name = .null := by
  have hsame := (Catalogue.global?_some hfound).2
  have hname : NominalType.name (.ofClass nested) = .null := hnull
  rw [hname] at hsame
  cases name <;> simp_all [Json.same, Json.asInt?]

theorem setBy_of_fieldBuilders {field : Field} {setters : List Builder}
    (hsetters : fieldBuilders catalogue field = .ok setters) : SetBy field setters := by
  refine ⟨field_of_mem_fieldBuilders hsetters, ?_, ?_⟩ <;>
    obtain ⟨-, rfl⟩ | ⟨nested, params, -, htypes, hfound, -, rfl⟩ := fieldBuilders_ok hsetters
  · intro _ b hb _
    obtain ⟨type, -, rfl⟩ := List.mem_map.mp hb
    exact ⟨rfl, rfl⟩
  · intro hname b hb hdirect
    rcases List.mem_pair.mp hb with rfl | rfl
    · exact absurd (eq_null_of_global? hfound hdirect) hname
    · exact ⟨rfl, rfl⟩
  · rw [← setterTypes_eq_nil_iff]
    constructor
    · rintro ⟨b, hb, -⟩ hnone
      simp [hnone] at hb
    · intro hsome
      obtain ⟨type, htype⟩ := List.exists_mem_of_ne_nil _ hsome
      exact ⟨setter field type, List.mem_map_of_mem htype, rfl, rfl⟩
  · rw [← setterTypes_eq_nil_iff, htypes]
    exact iff_of_true ⟨setter field (fieldRef field).name, by simp, rfl, rfl⟩ (by simp)

/-- The setters of a class come in blocks, one for each of its optional fields in turn. -/
theorem exists_setBlocks {fields : List Field} {builders : List Builder}
    (hbuilders : buildersOf catalogue fields = .ok builders) :
    ∃ blocks, builders = blocks.flatten ∧
      List.Forall₂ SetBy (fields.filter (!·.required)) blocks := by
  induction fields generalizing builders with
  | nil =>
      obtain rfl : [] = builders := by simpa [buildersOf] using hbuilders
      exact ⟨[], rfl, .nil⟩
  | cons field rest ih =>
      obtain ⟨first, others, rfl, hothers, hfirst⟩ := buildersOf_cons_ok hbuilders
      obtain ⟨blocks, rfl, hblocks⟩ := ih hothers
      obtain ⟨hrequired, rfl⟩ | ⟨hrequired, hfirst⟩ := hfirst
      · exact ⟨blocks, rfl, by simpa [hrequired] using hblocks⟩
      · refine ⟨first :: blocks, rfl, ?_⟩
        simpa [hrequired] using ⟨setBy_of_fieldBuilders hfirst, hblocks⟩

/-! ## Classes -/

/-- The declaration of a class accounts for its fields: it lists all of them, and unless only
methods return it, its constructor takes the required ones as they are declared, and the
optional ones are set, one after the other. -/
structure Accounts (type : ClassType) (shape : Class) : Prop where
  name : shape.name = type.name
  isReturnType : shape.isReturnType = type.isReturnType
  fields : List.Forall₂ Listed type.fields shape.fields
  constructorParams : shape.isReturnType = false →
    shape.constructorParams = requiredParams type.fields shape.fields
  builders : shape.isReturnType = false → ∃ blocks, shape.builders = blocks.flatten ∧
    List.Forall₂ SetBy (type.fields.filter (!·.required)) blocks

theorem accounts_of {type : ClassType} {shape : Class}
    (hshape : Class.of catalogue type = .ok shape) : Accounts type shape := by
  obtain ⟨hname, hfields, hparams, hbuilders, hreturn, -⟩ := Class.of_ok hshape
  refine ⟨hname, hreturn, listed_of_declareFields hfields, fun hbuilt => ?_, fun hbuilt => ?_⟩ <;>
    rw [hreturn] at hbuilt
  · rw [hbuilt, if_neg Bool.false_ne_true] at hparams
    exact eq_requiredParams hfields hparams
  · rw [hbuilt, if_neg Bool.false_ne_true] at hbuilders
    exact exists_setBlocks hbuilders

theorem accounts_of_classesOf {types : List ClassType} {classes : List Class}
    (hclasses : classesOf catalogue types = .ok classes) : List.Forall₂ Accounts types classes :=
  (classesOf_ok.mp hclasses).imp fun _ _ => accounts_of

/-- The interface at a position is declared like this when its turn comes, and then its nested
classes account for the fields of the classes that are local to it. -/
def AccountsNested (settings : Settings) (interfaces : List ApiBindings.Interface) (index : Nat)
    (declared : Interface) : Prop :=
  ∃ interface before start after, interfaces[index]? = some interface ∧
    outcome (declareInterfaces settings 0 (interfaces.take index)) .empty =
      (.ok before, start) ∧
    outcome (declareInterface settings [index] interface) start = (.ok declared, after) ∧
    List.Forall₂ Accounts (after.catalogue.localClasses interface.name) declared.nestedClasses

section

variable {settings : Settings} {interfaces : List ApiBindings.Interface}
  {declared : List Interface} {known after : Knowledge}

theorem length_declareInterfaces {position : Nat}
    (hrun : outcome (declareInterfaces settings position interfaces) known =
      (.ok declared, after)) : declared.length = interfaces.length := by
  induction interfaces generalizing position known declared with
  | nil =>
      obtain ⟨rfl, -⟩ : [] = declared ∧ known = after := by
        simpa [declareInterfaces] using hrun
      rfl
  | cons interface rest ih =>
      obtain ⟨first, others, middle, rfl, -, hothers⟩ := declareInterfaces_cons_ok hrun
      rw [List.length_cons, List.length_cons, ih hothers]

theorem accountsNested_of_declareInterfaces
    (hrun : outcome (declareInterfaces settings 0 interfaces) .empty = (.ok declared, after))
    {index : Nat} {own : Interface} (hat : declared[index]? = some own) :
    AccountsNested settings interfaces index own := by
  obtain ⟨hindex, -⟩ := List.getElem?_eq_some_iff.mp hat
  rw [length_declareInterfaces hrun] at hindex
  have hinterface := List.getElem?_eq_getElem hindex
  obtain ⟨before, start, mine, last, hbefore, hmine, hdeclared⟩ :=
    declareInterfaces_reaches hinterface hrun
  obtain rfl : mine = own := Option.some.inj (hdeclared.symm.trans hat)
  rw [Nat.zero_add] at hmine
  obtain ⟨-, -, -, -, hnested⟩ := declareInterface_ok hmine
  exact ⟨_, before, start, last, hinterface, hbefore, hmine, accounts_of_classesOf hnested⟩

end

end Surface

/-- An accepted description is read, and the interfaces in it are declared.  All classes that
are made on the way, be they global or local to an interface, are declared so that they account
for their fields. -/
theorem surface_accounts {settings : Settings} {language : Text}
    {commandLine : Generation.Invocation} {schema : Json} {surface : Surface}
    (haccepted : Generation.surface settings language commandLine schema = .ok surface) :
    ∃ restricted count interfaces known,
      Availability.restrict language schema = .ok (restricted, count) ∧
      Schema.read restricted = .ok interfaces ∧
      outcome (Surface.declareInterfaces settings 0 interfaces) .empty =
        (.ok surface.interfaces, known) ∧
      List.Forall₂ Surface.Accounts known.catalogue.globalClasses surface.classes ∧
      ∀ index declared, surface.interfaces[index]? = some declared →
        Surface.AccountsNested settings interfaces index declared := by
  obtain ⟨restricted, count, interfaces, declared, banner, hrestricted, hinterfaces, hdeclared,
    rfl⟩ := Generation.surface_read haccepted
  obtain ⟨known, hrun, hclasses, -⟩ := Surface.declare_ok hdeclared
  exact ⟨restricted, count, interfaces, known, hrestricted, hinterfaces, hrun,
    Surface.accounts_of_classesOf hclasses,
    fun _ _ hat => Surface.accountsNested_of_declareInterfaces hrun hat⟩

theorem surface_accounts_resize :
    ∃ surface restricted count interfaces known,
      pageSurface [resizeMethodJson] = .ok surface ∧ surface.classShapes.length = 2 ∧
      Availability.restrict "java" (pageJson [resizeMethodJson]) = .ok (restricted, count) ∧
      Schema.read restricted = .ok interfaces ∧
      outcome (Surface.declareInterfaces .defaults 0 interfaces) .empty =
        (.ok surface.interfaces, known) ∧
      List.Forall₂ Surface.Accounts known.catalogue.globalClasses surface.classes ∧
      ∀ index declared, surface.interfaces[index]? = some declared →
        Surface.AccountsNested .defaults interfaces index declared := by
  have hcount : (pageSurface [resizeMethodJson]).toOption.map
      (fun surface => surface.classShapes.length) = some 2 := by decide +kernel
  cases haccepted : pageSurface [resizeMethodJson] with
  | error failure => simp [haccepted, Except.toOption] at hcount
  | ok surface =>
      rw [haccepted] at hcount
      obtain ⟨restricted, count, interfaces, known, hconclusion⟩ := surface_accounts haccepted
      exact ⟨surface, restricted, count, interfaces, known, rfl, Option.some.inj hcount,
        hconclusion⟩

/-- The method `add`, whose options may hold a tag: null or any function. -/
def addMethodJson : Json :=
  .obj [("kind", .str "method"), ("name", .str "add"), ("args", .arr [
    .obj [("name", .str "options"), ("type", .obj [("name", .str "Object"),
      ("properties", .arr [
        .obj [("name", .str "tag"), ("required", .bool false),
          ("type", .obj [("name", .str ""), ("union", .arr [
            .obj [("name", .str "null")], .obj [("name", .str "function")]])])]])])]])]

/-- The tag is no parameter of the constructor, and no setter sets it. -/
theorem tag_never_set :
    ∃ surface, pageSurface [addMethodJson] = .ok surface ∧
      ∃ shape ∈ surface.classShapes, shape.isReturnType = false ∧
        ∃ field ∈ shape.fields, (∀ p ∈ shape.constructorParams, p.name ≠ field.name) ∧
          ∀ b ∈ shape.builders, b.field ≠ field.name := by
  have hmissing : (pageSurface [addMethodJson]).toOption.any
      (fun surface => decide (∃ shape ∈ surface.classShapes, shape.isReturnType = false ∧
        ∃ field ∈ shape.fields, (∀ p ∈ shape.constructorParams, p.name ≠ field.name) ∧
          ∀ b ∈ shape.builders, b.field ≠ field.name)) = true := by decide +kernel
  cases haccepted : pageSurface [addMethodJson] with
  | error failure => simp [haccepted, Except.toOption] at hmissing
  | ok surface =>
      rw [haccepted] at hmissing
      exact ⟨surface, rfl, of_decide_eq_true hmissing⟩

end ApiBindings
