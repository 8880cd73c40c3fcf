import ApiBindings.Surface.Class
import ApiBindings.Proofs.Nominal.Agreement
/-!
# Declaring classes

A class can be declared if the types of its fields can, and those of the fields
of the global classes that its setters make.  All of the declaration but the
setters depends on the class alone.
-/

namespace ApiBindings
namespace Surface

variable {catalogue : Catalogue}

/-! ## Fields -/

theorem isKey_of_box {type boxed : Json} (hbox : Java.box type = .ok boxed) :
    type.isKey = true := by
  cases type <;> simp_all [Java.box, Json.isKey]

theorem isKey_of_optionalOf {type : Json} {spelling : Text}
    (hoptional : Java.optionalOf type = .ok spelling) : type.isKey = true := by
  cases hbox : Java.box type with
  | error failure =>
      simp [Java.optionalOf, Java.containerOf, hbox, bind, Except.bind] at hoptional
  | ok boxed => exact isKey_of_box hbox

/-- A field that is not required is typed by a value to look up by. -/
theorem isKey_of_fieldType {field : Field} {type : Json} (hrequired : field.required = false)
    (htype : fieldType field = .ok type) : (fieldRef field).name.isKey = true := by
  unfold fieldType at htype
  cases hnullable : (fieldRef field).isNullable with
  | false =>
      simp only [hnullable, hrequired, Bool.false_eq_true, if_false, bind,
        Except.bind] at htype
      exact isKey_of_box htype
  | true =>
      cases hoptional : Java.optionalOf (fieldRef field).name with
      | error failure => simp [hnullable, hoptional, bind, Except.bind] at htype
      | ok spelling => exact isKey_of_optionalOf hoptional

theorem declareFields_cons_ok {comment : Field → Json} {field : Field}
    {rest : List Field} {params : List Param}
    (hparams : declareFields comment (field :: rest) = .ok params) :
    ∃ type others, fieldType field = .ok type ∧
      declareFields comment rest = .ok others ∧
      params = { name := field.name, type, comment := comment field } :: others := by
  unfold declareFields at hparams
  cases htype : fieldType field with
  | error failure => simp [htype, bind, Except.bind] at hparams
  | ok type =>
      cases hothers : declareFields comment rest with
      | error failure => simp [htype, hothers, bind, Except.bind] at hparams
      | ok others =>
          refine ⟨type, others, rfl, rfl, ?_⟩
          simpa [htype, hothers, bind, Except.bind, pure, Except.pure, eq_comm]
            using hparams

theorem exists_fieldType_of_declareFields {comment : Field → Json} {fields : List Field}
    {params : List Param} (hparams : declareFields comment fields = .ok params) :
    ∀ field ∈ fields, ∃ type, fieldType field = .ok type := by
  induction fields generalizing params with
  | nil => simp
  | cons field rest ih =>
      obtain ⟨type, others, htype, hothers, -⟩ := declareFields_cons_ok hparams
      exact List.forall_mem_cons.mpr ⟨⟨type, htype⟩, ih hothers⟩

theorem exists_declareFields (comment : Field → Json) {fields : List Field}
    (htypes : ∀ field ∈ fields, ∃ type, fieldType field = .ok type) :
    ∃ params, declareFields comment fields = .ok params := by
  induction fields with
  | nil => exact ⟨[], rfl⟩
  | cons field rest ih =>
      obtain ⟨⟨type, htype⟩, hrest⟩ := List.forall_mem_cons.mp htypes
      obtain ⟨others, hothers⟩ := ih hrest
      exact ⟨_, by rw [declareFields, htype, hothers]; rfl⟩

/-! ## Classes -/

/-- The fields of all global classes can be declared. -/
def Fieldable (catalogue : Catalogue) : Prop :=
  ∀ type, .ofClass type ∈ catalogue.globals →
    ∀ field ∈ type.fields, ∃ spelled, fieldType field = .ok spelled

theorem exists_fieldBuilders (hglobals : Fieldable catalogue) {field : Field} {type : Json}
    (hrequired : field.required = false) (htype : fieldType field = .ok type) :
    ∃ builders, fieldBuilders catalogue field = .ok builders := by
  have hkey := isKey_of_fieldType hrequired htype
  have hnested : ∃ nested, nestedBuilder? catalogue field = .ok nested := by
    unfold nestedBuilder?
    by_cases hkind : (fieldRef field).kind = .classType
    · simp only [hkind, ne_eq, not_true_eq_false, if_false, Catalogue.lookUp, hkey, if_true,
        bind, Except.bind, pure, Except.pure]
      split
      next nested hfound =>
        split
        next => exact ⟨none, rfl⟩
        next =>
          obtain ⟨hmem, -⟩ := Catalogue.global?_some hfound
          have htypes : ∀ f ∈ nested.fields.filter (·.required),
              ∃ spelled, fieldType f = .ok spelled :=
            fun f hf => hglobals nested hmem f (List.mem_of_mem_filter hf)
          obtain ⟨params, hparams⟩ := exists_declareFields (fun _ => .str []) htypes
          rw [fieldParams, hparams]
          exact ⟨_, rfl⟩
      next => exact ⟨none, rfl⟩
    · simp [hkind, pure, Except.pure]
  obtain ⟨nested, hnested⟩ := hnested
  unfold fieldBuilders
  dsimp only
  split
  next => exact ⟨_, rfl⟩
  next =>
    rw [hnested]
    exact ⟨_, rfl⟩

theorem exists_buildersOf (hglobals : Fieldable catalogue) {fields : List Field}
    (htypes : ∀ field ∈ fields, ∃ type, fieldType field = .ok type) :
    ∃ builders, buildersOf catalogue fields = .ok builders := by
  induction fields with
  | nil => exact ⟨[], rfl⟩
  | cons field rest ih =>
      obtain ⟨⟨type, htype⟩, hrest⟩ := List.forall_mem_cons.mp htypes
      obtain ⟨others, hothers⟩ := ih hrest
      rw [buildersOf, hothers]
      cases hrequired : field.required with
      | true => exact ⟨_, rfl⟩
      | false =>
          obtain ⟨first, hfirst⟩ := exists_fieldBuilders hglobals hrequired htype
          rw [hfirst]
          exact ⟨_, rfl⟩

theorem Class.of_ok {type : ClassType} {c : Class} (hc : Class.of catalogue type = .ok c) :
    c.name = type.name ∧ declareFields Field.comment type.fields = .ok c.fields ∧
      (if type.isReturnType then .ok []
        else fieldParams (type.fields.filter (·.required))) = .ok c.constructorParams ∧
      (if type.isReturnType then .ok [] else buildersOf catalogue type.fields) =
        .ok c.builders ∧
      c.isReturnType = type.isReturnType ∧ c.isPublic = decide (type.scope = .global) := by
  unfold Class.of at hc
  cases hfields : declareFields Field.comment type.fields with
  | error failure => simp [hfields, bind, Except.bind] at hc
  | ok fields =>
      cases hreturn : type.isReturnType with
      | true =>
          simp only [hfields, hreturn, bind, Except.bind, pure, Except.pure, if_true,
            Except.ok.injEq] at hc
          subst c
          simp
      | false =>
          cases hparams : fieldParams (type.fields.filter (·.required)) with
          | error failure => simp [hfields, hreturn, hparams, bind, Except.bind] at hc
          | ok params =>
              cases hbuilders : buildersOf catalogue type.fields with
              | error failure =>
                  simp [hfields, hreturn, hparams, hbuilders, bind, Except.bind] at hc
              | ok builders =>
                  simp only [hfields, hreturn, hparams, hbuilders, bind, Except.bind,
                    pure, Except.pure, Bool.false_eq_true, if_false,
                    Except.ok.injEq] at hc
                  subst c
                  simp

/-- A class can be declared whose fields can. -/
theorem Class.exists_of (hglobals : Fieldable catalogue) {type : ClassType}
    (htypes : ∀ field ∈ type.fields, ∃ spelled, fieldType field = .ok spelled) :
    ∃ c, Class.of catalogue type = .ok c := by
  obtain ⟨fields, hfields⟩ := exists_declareFields Field.comment htypes
  have hrequired : ∀ f ∈ type.fields.filter (·.required),
      ∃ spelled, fieldType f = .ok spelled :=
    fun f hf => htypes f (List.mem_of_mem_filter hf)
  obtain ⟨params, hparams⟩ := exists_declareFields (fun _ => .str []) hrequired
  obtain ⟨builders, hbuilders⟩ := exists_buildersOf hglobals htypes
  unfold Class.of
  rw [hfields]
  cases type.isReturnType with
  | true => exact ⟨_, rfl⟩
  | false =>
      rw [fieldParams, hparams, hbuilders]
      exact ⟨_, rfl⟩

/-- The same declaration without setters. -/
def Class.withoutBuilders (c : Class) : Class :=
  { c with builders := [] }

/-- But for its setters, a class is declared alike whatever else is known. -/
theorem Class.withoutBuilders_congr {other : Catalogue} {type : ClassType} {c d : Class}
    (hc : Class.of catalogue type = .ok c) (hd : Class.of other type = .ok d) :
    c.withoutBuilders = d.withoutBuilders := by
  obtain ⟨hname, hfields, hparams, -, hreturn, hpublic⟩ := Class.of_ok hc
  obtain ⟨hname', hfields', hparams', -, hreturn', hpublic'⟩ := Class.of_ok hd
  obtain ⟨name, fields, params, builders, isReturnType, isPublic⟩ := c
  obtain ⟨name', fields', params', builders', isReturnType', isPublic'⟩ := d
  simp only [Class.withoutBuilders, Class.mk.injEq, true_and]
  exact ⟨hname.trans hname'.symm, Except.ok.inj (hfields.symm.trans hfields'),
    Except.ok.inj (hparams.symm.trans hparams'), hreturn.trans hreturn'.symm,
    hpublic.trans hpublic'.symm⟩

theorem classesOf_ok {types : List ClassType} {classes : List Class} :
    classesOf catalogue types = .ok classes ↔
      List.Forall₂ (fun type c => Class.of catalogue type = .ok c) types classes := by
  induction types generalizing classes with
  | nil => cases classes <;> simp [classesOf]
  | cons type rest ih =>
      unfold classesOf
      cases hfirst : Class.of catalogue type with
      | error failure => cases classes <;> simp [hfirst, bind, Except.bind]
      | ok first =>
          cases hothers : classesOf catalogue rest with
          | error failure =>
              cases classes <;> simp [← ih, hfirst, hothers, bind, Except.bind]
          | ok others =>
              cases classes <;>
                simp [← ih, hfirst, hothers, bind, Except.bind, pure, Except.pure]

theorem exists_classesOf (hglobals : Fieldable catalogue) {types : List ClassType}
    (htypes : ∀ type ∈ types, ∀ field ∈ type.fields,
      ∃ spelled, fieldType field = .ok spelled) :
    ∃ classes, classesOf catalogue types = .ok classes := by
  induction types with
  | nil => exact ⟨[], rfl⟩
  | cons type rest ih =>
      obtain ⟨hfields, hrest⟩ := List.forall_mem_cons.mp htypes
      obtain ⟨first, hfirst⟩ := Class.exists_of hglobals hfields
      obtain ⟨others, hothers⟩ := ih hrest
      exact ⟨first :: others, by rw [classesOf, hfirst, hothers]; rfl⟩

theorem exists_of_mem_left {α β : Type} {R : α → β → Prop} {as : List α} {bs : List β}
    (hforall : List.Forall₂ R as bs) : ∀ a ∈ as, ∃ b ∈ bs, R a b := by
  induction hforall with
  | nil => simp
  | @cons a b as bs hab _ ih =>
      refine List.forall_mem_cons.mpr ⟨⟨b, List.mem_cons_self, hab⟩, fun a ha => ?_⟩
      obtain ⟨b, hb, hab⟩ := ih a ha
      exact ⟨b, List.mem_cons_of_mem _ hb, hab⟩

theorem exists_declared_of_mem {types : List ClassType} {classes : List Class}
    (hclasses : classesOf catalogue types = .ok classes) :
    ∀ type ∈ types, ∃ c ∈ classes, Class.of catalogue type = .ok c :=
  exists_of_mem_left (classesOf_ok.mp hclasses)

theorem exists_type_of_mem {types : List ClassType} {classes : List Class}
    (hclasses : classesOf catalogue types = .ok classes) :
    ∀ c ∈ classes, ∃ type ∈ types, Class.of catalogue type = .ok c :=
  exists_of_mem_left (classesOf_ok.mp hclasses).flip

theorem classesOf_congr {other : Catalogue} {types : List ClassType} {cs ds : List Class}
    (hcs : classesOf catalogue types = .ok cs) (hds : classesOf other types = .ok ds) :
    cs.map Class.withoutBuilders = ds.map Class.withoutBuilders := by
  rw [classesOf_ok] at hcs hds
  induction hcs generalizing ds with
  | nil =>
      cases hds
      rfl
  | cons hc _ ih =>
      cases hds with
      | cons hd hrest =>
          rw [List.map_cons, List.map_cons, Class.withoutBuilders_congr hc hd, ih hrest]

/-- Classes that are declared once are declared wherever the fields of all global
classes can. -/
theorem exists_classesOf_again {other : Catalogue} (hglobals : Fieldable other)
    {types : List ClassType} {classes : List Class}
    (hclasses : classesOf catalogue types = .ok classes) :
    ∃ classes', classesOf other types = .ok classes' ∧
      classes'.map Class.withoutBuilders = classes.map Class.withoutBuilders := by
  have htypes : ∀ type ∈ types, ∀ field ∈ type.fields,
      ∃ spelled, fieldType field = .ok spelled := by
    intro type htype
    obtain ⟨c, -, hc⟩ := exists_declared_of_mem hclasses type htype
    exact exists_fieldType_of_declareFields (Class.of_ok hc).2.1
  obtain ⟨classes', hclasses'⟩ := exists_classesOf hglobals htypes
  exact ⟨classes', hclasses', classesOf_congr hclasses' hclasses⟩

end Surface
end ApiBindings
