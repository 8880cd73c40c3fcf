import ApiBindings.Generation
import ApiBindings.Proofs.Resolution.Registration
import ApiBindings.Proofs.Surface.Deduplication
import ApiBindings.Proofs.Surface.Modularity
/-!
# Setters that construct

A setter can make the value of its field from parameters, which it hands to the
constructor of a class.  That class is always declared, and it has a constructor
of just these parameters unless it is a class that methods return: such a class
has none, and nothing keeps it from being the type of a field.
-/

namespace ApiBindings

open Resolving (outcome)

namespace Generation

/-- An accepted description is restricted and read, then its interfaces are declared, and then
the comment for the files is added. -/
theorem surface_read {settings : Settings} {language : Text} {commandLine : Invocation}
    {schema : Json} {surface : Surface}
    (haccepted : Generation.surface settings language commandLine schema = .ok surface) :
    ∃ restricted count interfaces declared banner,
      Availability.restrict language schema = .ok (restricted, count) ∧
      Schema.read restricted = .ok interfaces ∧
      Surface.declare settings interfaces = .ok declared ∧ surface = { declared with banner } := by
  unfold Generation.surface at haccepted
  obtain ⟨_, -, haccepted⟩ := exists_of_bind_ok haccepted
  obtain ⟨⟨restricted, count⟩, hrestricted, haccepted⟩ := exists_of_bind_ok haccepted
  obtain ⟨interfaces, hinterfaces, haccepted⟩ := exists_of_bind_ok haccepted
  obtain ⟨declared, hdeclared, haccepted⟩ := exists_of_bind_ok haccepted
  obtain ⟨banner, -, haccepted⟩ := exists_of_bind_ok haccepted
  exact ⟨restricted, count, interfaces, declared, banner, hrestricted, hinterfaces, hdeclared,
    (Except.ok.inj haccepted).symm⟩

theorem surface_declared {settings : Settings} {language : Text} {commandLine : Invocation}
    {schema : Json} {surface : Surface}
    (haccepted : Generation.surface settings language commandLine schema = .ok surface) :
    ∃ interfaces declared banner, Surface.declare settings interfaces = .ok declared ∧
      surface = { declared with banner } := by
  obtain ⟨_, _, interfaces, declared, banner, -, -, hdeclared, hsurface⟩ := surface_read haccepted
  exact ⟨interfaces, declared, banner, hdeclared, hsurface⟩

theorem surface_ok {settings : Settings} {language : Text} {commandLine : Invocation}
    {schema : Json} {surface : Surface}
    (haccepted : Generation.surface settings language commandLine schema = .ok surface) :
    ∃ interfaces declared, Surface.declare settings interfaces = .ok declared ∧
      surface.interfaces = declared.interfaces ∧ surface.classes = declared.classes := by
  obtain ⟨interfaces, declared, banner, hdeclared, rfl⟩ := surface_declared haccepted
  exact ⟨interfaces, declared, hdeclared, rfl, rfl⟩

end Generation

/-- All classes that a surface declares, be it globally or within an interface. -/
def Surface.classShapes (surface : Surface) : List Surface.Class :=
  surface.classes ++ surface.interfaces.flatMap (·.nestedClasses)

namespace Surface

variable {settings : Settings} {catalogue : Catalogue} {known after : Knowledge}

/-! ## Where setters come from -/

theorem field_of_mem_builders {fields : List Field} {builders : List Builder}
    (hbuilders : buildersOf catalogue fields = .ok builders) {b : Builder}
    (hb : b ∈ builders) :
    ∃ field own, fieldBuilders catalogue field = .ok own ∧ b ∈ own ∧ own ⊆ builders := by
  induction fields generalizing builders with
  | nil =>
      obtain rfl : [] = builders := by simpa [buildersOf] using hbuilders
      simp at hb
  | cons field rest ih =>
      obtain ⟨first, others, rfl, hothers, hfirst⟩ := buildersOf_cons_ok hbuilders
      rcases List.mem_append.mp hb with hb | hb
      · obtain ⟨-, rfl⟩ | ⟨-, hfirst⟩ := hfirst
        · simp at hb
        · exact ⟨field, first, hfirst, hb, List.subset_append_left _ _⟩
      · obtain ⟨field', own, hown, hmem, hsubset⟩ := ih hothers hb
        exact ⟨field', own, hown, hmem, List.Subset.trans hsubset (List.subset_append_right _ _)⟩

/-- A setter that makes a value takes the required fields, of which there are
some, of a global class. -/
theorem made_of_mem_builders {type : ClassType} {shape : Class} {b : Builder}
    (hshape : Class.of catalogue type = .ok shape) (hb : b ∈ shape.builders)
    (hmakes : b.nestedClass ≠ .null) :
    ∃ nested, (∃ name, catalogue.global? name = some (.ofClass nested)) ∧
      b.nestedClass = nested.name ∧ b.params ≠ [] ∧
      fieldParams (nested.fields.filter (·.required)) = .ok b.params := by
  obtain ⟨-, -, -, hbuilders, -, -⟩ := Class.of_ok hshape
  split at hbuilders
  next =>
    have hnone : [] = shape.builders := Except.ok.inj hbuilders
    simp [← hnone] at hb
  next =>
    obtain ⟨field, own, hown, hmem, -⟩ := field_of_mem_builders hbuilders hb
    obtain ⟨-, rfl⟩ | ⟨nested, params, hmade, -, hfound, hparams, rfl⟩ := fieldBuilders_ok hown
    · obtain ⟨type, -, rfl⟩ := List.mem_map.mp hmem
      exact absurd rfl hmakes
    · have hcases : b = maker field params nested ∨ b = setter field (fieldRef field).name := by
        simpa using hmem
      rcases hcases with rfl | rfl
      · refine ⟨nested, ⟨_, hfound⟩, rfl, ?_, hparams⟩
        obtain ⟨-, nested', hfound', hrequired⟩ := hmade
        obtain rfl : nested = nested' := by simpa [hfound] using hfound'
        rintro hnone
        cases hfields : nested.fields.filter (·.required) with
        | nil => simp [hfields] at hrequired
        | cons first rest =>
            rw [hfields] at hparams
            obtain ⟨_, _, -, -, hcons⟩ := declareFields_cons_ok hparams
            simp [maker, hcons] at hnone
      · exact absurd rfl hmakes

theorem nestedClasses_of_mem {interfaces : List ApiBindings.Interface} {position : Nat}
    {declared : List Interface}
    (hrun : outcome (declareInterfaces settings position interfaces) known =
      (.ok declared, after)) :
    ∀ i ∈ declared, ∃ (middle : Knowledge) (owner : Text), middle.GrowsTo after ∧
      classesOf middle.catalogue (middle.catalogue.localClasses owner) =
        .ok i.nestedClasses := by
  induction interfaces generalizing position known declared with
  | nil =>
      obtain ⟨rfl, -⟩ : [] = declared ∧ known = after := by
        simpa [declareInterfaces] using hrun
      simp
  | cons interface rest ih =>
      obtain ⟨first, others, middle, rfl, hfirst, hothers⟩ := declareInterfaces_cons_ok hrun
      obtain ⟨-, -, -, -, hnested⟩ := declareInterface_ok hfirst
      exact List.forall_mem_cons.mpr
        ⟨⟨middle, interface.name, declareInterfaces_growsTo hothers, hnested⟩, ih hothers⟩

/-- Every class of a surface is declared with part of what is known in the end. -/
theorem shape_of_mem {surface : Surface} {interfaces : List ApiBindings.Interface}
    (hinterfaces : outcome (declareInterfaces settings 0 interfaces) .empty =
      (.ok surface.interfaces, known))
    (hclasses : classesOf known.catalogue known.catalogue.globalClasses =
      .ok surface.classes) :
    ∀ shape ∈ surface.classShapes, ∃ (middle : Knowledge) (type : ClassType), middle.GrowsTo known ∧
      Class.of middle.catalogue type = .ok shape := by
  intro shape hshape
  rcases List.mem_append.mp hshape with hglobal | hnested
  · obtain ⟨type, -, htype⟩ := exists_type_of_mem hclasses shape hglobal
    exact ⟨known, type, .refl _, htype⟩
  · obtain ⟨i, hi, hmem⟩ := List.mem_flatMap.mp hnested
    obtain ⟨middle, owner, hgrows, hlocals⟩ := nestedClasses_of_mem hinterfaces i hi
    obtain ⟨type, -, htype⟩ := exists_type_of_mem hlocals shape hmem
    exact ⟨middle, type, hgrows, htype⟩

theorem declareInterfaces_named {interfaces : List ApiBindings.Interface} {position : Nat}
    {declared : List Interface}
    (hrun : outcome (declareInterfaces settings position interfaces) .empty =
      (.ok declared, after)) : after.catalogue.Named :=
  ((Resolving.Contract.meets_declareInterfaces
    (C := (Resolving.lasting_namedFrom []).contract settings fun entry hnamed => hnamed.remember entry)
    (fun _ _ => trivial)
    ⟨Catalogue.named_empty, List.nil_prefix⟩).of_ok hrun).2.1.named

theorem eq_of_declared_names {a b : ClassType} {c d : Class} (hnamed : catalogue.Named)
    (ha : a ∈ catalogue.globalClasses) (hb : b ∈ catalogue.globalClasses)
    (hc : Class.of catalogue a = .ok c) (hd : Class.of catalogue b = .ok d)
    (hname : c.name = d.name) : c = d := by
  have hname : NominalType.name (.ofClass a) = NominalType.name (.ofClass b) :=
    (Class.of_ok hc).1.symm.trans (hname.trans (Class.of_ok hd).1)
  have heq := hnamed.globals.eq_of_name_eq (mem_globalClasses.mp ha)
    (mem_globalClasses.mp hb) hname
  obtain rfl := NominalType.ofClass.inj heq
  exact Except.ok.inj (hc.symm.trans hd)

end Surface

/-! ## The classes that are made -/

/-- Of an accepted description, each setter that makes a value names a declared
class and no other one.  The constructor of that class takes the parameters of the
setter, which are some, unless methods return the class: then it has none. -/
theorem surface_constructs_iff {settings : Settings} {language : Text}
    {commandLine : Generation.Invocation} {schema : Json} {surface : Surface}
    (haccepted : Generation.surface settings language commandLine schema = .ok surface) :
    ∀ shape ∈ surface.classShapes, ∀ b ∈ shape.builders, b.nestedClass ≠ .null →
      ∃ made ∈ surface.classes,
        (∀ other ∈ surface.classes, other.name = b.nestedClass ↔ other = made) ∧
        (made.constructorParams = b.params ↔ made.isReturnType = false) ∧
        (made.isReturnType = true → made.constructorParams = []) := by
  obtain ⟨interfaces, declared, hdeclared, hinterfaces, hclasses⟩ :=
    Generation.surface_ok haccepted
  obtain ⟨known, hrun, hglobals, -⟩ := Surface.declare_ok hdeclared
  rw [← hinterfaces] at hrun
  rw [← hclasses] at hglobals
  intro shape hshape b hb hmakes
  obtain ⟨middle, type, hgrows, htype⟩ := Surface.shape_of_mem hrun hglobals shape hshape
  obtain ⟨nested, ⟨name, hfound⟩, hname, hsome, hparams⟩ :=
    Surface.made_of_mem_builders htype hb hmakes
  have hnested : nested ∈ known.catalogue.globalClasses :=
    mem_globalClasses.mpr (Catalogue.global?_some (hgrows.catalogue.global? hfound)).1
  obtain ⟨made, hmade, hof⟩ := Surface.exists_declared_of_mem hglobals nested hnested
  obtain ⟨hmadeName, -, hconstructor, -, hreturn, -⟩ := Surface.Class.of_ok hof
  refine ⟨made, hmade, ?_, ?_, ?_⟩
  · intro other hother
    constructor
    · intro hotherName
      obtain ⟨otherType, hotherType, hotherOf⟩ :=
        Surface.exists_type_of_mem hglobals other hother
      exact Surface.eq_of_declared_names (Surface.declareInterfaces_named hrun) hotherType
        hnested hotherOf hof (hotherName.trans (hname.trans hmadeName.symm))
    · rintro rfl
      exact hmadeName.trans hname.symm
  · rw [hreturn]
    cases hkind : nested.isReturnType with
    | true =>
        have hnone : [] = made.constructorParams := by simpa [hkind] using hconstructor
        simp [← hnone, Ne.symm hsome]
    | false =>
        rw [hkind, if_neg Bool.false_ne_true, hparams] at hconstructor
        simp [Except.ok.inj hconstructor]
  · intro hkind
    rw [hreturn] at hkind
    simpa [hkind, eq_comm] using hconstructor

/-! ## A page with a size -/

/-- The type of a record with a width. -/
def sizeJson : Json :=
  .obj [("name", .str "Object"), ("properties", .arr [
    .obj [("name", .str "width"), ("required", .bool true),
      ("type", .obj [("name", .str "int")])]])]

/-- The method `size`, which returns such a record. -/
def sizeMethodJson : Json :=
  .obj [("kind", .str "method"), ("name", .str "size"), ("type", sizeJson)]

/-- The method `resize`, whose options may hold such a record. -/
def resizeMethodJson : Json :=
  .obj [("kind", .str "method"), ("name", .str "resize"), ("args", .arr [
    .obj [("name", .str "options"), ("type", .obj [("name", .str "Object"),
      ("properties", .arr [
        .obj [("name", .str "size"), ("required", .bool false), ("type", sizeJson)]])])]])]

/-- The description of a page with these members. -/
def pageJson (members : List Json) : Json :=
  .arr [.obj [("name", .str "Page"), ("members", .arr members)]]

/-- The surface of a page under the default settings. -/
def pageSurface (members : List Json) : Except Failure Surface :=
  Generation.surface .defaults "java" (.ok Generation.commandName) (pageJson members)

/-- The setters that make a value, of all classes of a surface. -/
def Surface.makers (surface : Surface) : List Surface.Builder :=
  (surface.classShapes.flatMap (·.builders)).filter fun b => !b.nestedClass.isNull

/-- A size that is only taken has the constructor that the setter calls. -/
theorem surface_constructs_iff_resize :
    ∃ surface, pageSurface [resizeMethodJson] = .ok surface ∧
      ∃ shape ∈ surface.classShapes, ∃ b ∈ shape.builders, b.nestedClass ≠ .null ∧
      ∃ made ∈ surface.classes,
        (∀ other ∈ surface.classes, other.name = b.nestedClass ↔ other = made) ∧
        (made.constructorParams = b.params ↔ made.isReturnType = false) ∧
        (made.isReturnType = true → made.constructorParams = []) := by
  cases haccepted : pageSurface [resizeMethodJson] with
  | error failure =>
      have hok : (pageSurface [resizeMethodJson]).toOption.isSome = true := by decide +kernel
      simp [haccepted, Except.toOption] at hok
  | ok surface =>
      have hmaker : (pageSurface [resizeMethodJson]).toOption.any
          (fun surface => !surface.makers.isEmpty) = true := by decide +kernel
      rw [haccepted] at hmaker
      have hsome : surface.makers ≠ [] := by simpa [Except.toOption] using hmaker
      obtain ⟨b, hb⟩ := List.exists_mem_of_ne_nil _ hsome
      obtain ⟨hb, hnull⟩ := List.mem_filter.mp hb
      obtain ⟨shape, hshape, hb⟩ := List.mem_flatMap.mp hb
      have hmakes : b.nestedClass ≠ .null := by
        intro hnone
        simp [hnone, Json.isNull] at hnull
      exact ⟨surface, rfl, shape, hshape, b, hb, hmakes,
        surface_constructs_iff haccepted shape hshape b hb hmakes⟩

/-- If a method returns a size, too, the setter calls a constructor that no class
of its name has. -/
theorem resize_makes_returned_size :
    ∃ surface, pageSurface [sizeMethodJson, resizeMethodJson] = .ok surface ∧
      ∃ b ∈ surface.makers, ∀ made ∈ surface.classes,
        made.name.same b.nestedClass = true →
          made.isReturnType = true ∧
            made.constructorParams.length ≠ b.params.length := by
  have hamiss : (pageSurface [sizeMethodJson, resizeMethodJson]).toOption.any
      (fun surface => decide (∃ b ∈ surface.makers, ∀ made ∈ surface.classes,
        made.name.same b.nestedClass = true →
          made.isReturnType = true ∧
            made.constructorParams.length ≠ b.params.length)) = true := by decide +kernel
  cases haccepted : pageSurface [sizeMethodJson, resizeMethodJson] with
  | error failure => simp [haccepted, Except.toOption] at hamiss
  | ok surface =>
      rw [haccepted] at hamiss
      exact ⟨surface, rfl, of_decide_eq_true hamiss⟩

end ApiBindings
