import ApiBindings.Proofs.Resolution.Kept
import ApiBindings.Proofs.Resolution.Requests
import ApiBindings.Proofs.Surface.Class
/-!
# What deduplication keeps of a declaration

When a global class is registered again, the first definition stands for both
if they agree in the signatures of their fields.  A declaration shows more than
the signatures: whether the class is only returned, and for each optional field
which setters there are.  Where the two definitions differ in that, the later
one is declared differently than it asks for.
-/

namespace ApiBindings

/-! ## What registered classes are made of -/

/-- A union is named by a text, as no class needs to be. -/
def TypeRef.NamesUnion (ref : TypeRef) : Prop :=
  ref.isUnion = true → ∃ text, ref.name = .str text

theorem TypeRef.NamesUnion.of_not_union {ref : TypeRef} (hkind : ref.kind ≠ .union) :
    ref.NamesUnion := by
  intro hunion
  simp [TypeRef.isUnion, hkind] at hunion

theorem TypeRef.kept_namesUnion (settings : Settings) :
    TypeRef.Kept settings TypeRef.NamesUnion where
  builtin spelling := fun _ => ⟨spelling, rfl⟩
  enum _ := .of_not_union (by simp [TypeRef.enum, TypeRef.kind])
  union name _ := fun _ => ⟨name, rfl⟩
  asNullable {ref} hnames := by
    cases ref
    exact hnames
  replaced hreplaced := by
    obtain ⟨replaced, -, rfl⟩ := replacement?_some hreplaced
    apply TypeRef.NamesUnion.of_not_union
    split <;> simp [TypeRef.enum, TypeRef.globalClass, TypeRef.kind]
  plan _ _ := .of_not_union (by simp [ClassPlan.ref, TypeRef.kind])

/-! ## When two definitions are declared alike -/

open Surface (fieldRef fieldType declareFields fieldParams fieldBuilders buildersOf
  nestedBuilder? directBuilder)

/-- The types that the setters of an optional field take as they are. -/
def Field.setterTypes (field : Field) : List Json :=
  if (fieldRef field).isUnion then (fieldRef field).variants.map TypeRef.name
  else [(fieldRef field).name]

/-- The value of a field can also be made from the required fields of its class. -/
def Catalogue.Makes (catalogue : Catalogue) (field : Field) : Prop :=
  (fieldRef field).kind = .classType ∧ ∃ nested,
    catalogue.global? (fieldRef field).name = some (.ofClass nested) ∧
    (nested.fields.filter (·.required)).isEmpty = false

/-- Two definitions are spelled alike. -/
structure ClassType.SpelledLike (a b : ClassType) : Prop where
  name : a.name = b.name
  fields : List.Forall₂ (fun f g => fieldType f = fieldType g) a.fields b.fields

/-- The optional ones of two lists of fields are set alike. -/
def Catalogue.SetsAlike (catalogue : Catalogue) (fs gs : List Field) : Prop :=
  List.Forall₂ (fun f g => f.required = false →
    f.setterTypes = g.setterTypes ∧ (catalogue.Makes f ↔ catalogue.Makes g)) fs gs

/-- Two definitions are spelled alike, both or none of them are only returned,
and unless they are, their optional fields are set alike. -/
structure ClassType.DeclaredLike (catalogue : Catalogue) (a b : ClassType) : Prop where
  spelled : a.SpelledLike b
  isReturnType : a.isReturnType = b.isReturnType
  setters : a.isReturnType = false → catalogue.SetsAlike a.fields b.fields

/-- What two fields of the same position have in common when their classes agree. -/
structure Field.Matches (f g : Field) : Prop where
  name : f.name = g.name
  required : f.required = g.required
  isNullable : (fieldRef f).isNullable = (fieldRef g).isNullable
  texts : ∀ text, (fieldRef f).name = .str text ↔ (fieldRef g).name = .str text
  namesUnion : (fieldRef f).NamesUnion
  namesUnion' : (fieldRef g).NamesUnion

theorem Field.Matches.symm {f g : Field} (h : f.Matches g) : g.Matches f :=
  ⟨h.name.symm, h.required.symm, h.isNullable.symm, fun text => (h.texts text).symm,
    h.namesUnion', h.namesUnion⟩

/-- If one of two matching fields is typed by a union, both types are named by
one and the same text. -/
theorem Field.Matches.text_of_union {f g : Field} (h : f.Matches g)
    (hunion : (fieldRef f).isUnion = true) :
    ∃ text, (fieldRef f).name = .str text ∧ (fieldRef g).name = .str text := by
  obtain ⟨text, htext⟩ := h.namesUnion hunion
  exact ⟨text, htext, (h.texts text).mp htext⟩

theorem Field.Matches.of_agrees {f g : Field} {r r' : TypeRef}
    (hagrees : g.signature.agrees f.signature = true)
    (hf : f.type = some r) (hg : g.type = some r')
    (hr : r.NamesUnion) (hr' : r'.NamesUnion) : f.Matches g := by
  obtain ⟨hname, hrequired, hsame, hnullable⟩ := FieldSignature.agrees_iff.mp hagrees
  simp only [Field.signature, hf, hg, Option.map_some, Option.getD_some] at hsame hnullable
  refine ⟨hname.symm, hrequired.symm, ?_, ?_, ?_, ?_⟩
  · simpa [fieldRef, hf, hg] using hnullable.symm
  · intro text
    simp only [fieldRef, hf, hg, Option.getD_some]
    constructor
    · intro htext
      rw [htext] at hsame
      exact Json.same_str_right.mp hsame
    · intro htext
      rw [htext] at hsame
      exact Json.same_str_left.mp hsame
  · simpa [fieldRef, hf] using hr
  · simpa [fieldRef, hg] using hr'

/-! ## Fields -/

namespace Surface

/-- The same parameter without a comment. -/
def Param.uncommented (p : Param) : Param :=
  { p with comment := .null }

/-- The same declaration without comments. -/
def Class.uncommented (c : Class) : Class :=
  { c with fields := c.fields.map Param.uncommented }

variable {catalogue : Catalogue}

/-- Fields are declared alike up to comments exactly if they are typed alike. -/
theorem declareFields_uncommented_iff {comment comment' : Field → Json}
    {fs gs : List Field} {ps qs : List Param} (hmatch : List.Forall₂ Field.Matches fs gs)
    (hps : declareFields comment fs = .ok ps) (hqs : declareFields comment' gs = .ok qs) :
    ps.map Param.uncommented = qs.map Param.uncommented ↔
      List.Forall₂ (fun f g => fieldType f = fieldType g) fs gs := by
  induction hmatch generalizing ps qs with
  | nil =>
      obtain rfl : [] = ps := by simpa [declareFields] using hps
      obtain rfl : [] = qs := by simpa [declareFields] using hqs
      simp
  | cons h _ ih =>
      obtain ⟨type, others, htype, hothers, rfl⟩ := declareFields_cons_ok hps
      obtain ⟨type', others', htype', hothers', rfl⟩ := declareFields_cons_ok hqs
      simp only [List.map_cons, List.cons.injEq, List.forall₂_cons, htype, htype',
        Except.ok.injEq, ih hothers hothers']
      simp [Param.uncommented, h.name]

theorem fieldParams_congr {fs gs : List Field} (hmatch : List.Forall₂ Field.Matches fs gs)
    (htypes : List.Forall₂ (fun f g => fieldType f = fieldType g) fs gs) :
    fieldParams (fs.filter (·.required)) = fieldParams (gs.filter (·.required)) := by
  induction hmatch with
  | nil => rfl
  | @cons f g fs gs h _ ih =>
      obtain ⟨htype, htypes⟩ := List.forall₂_cons.mp htypes
      have hrest := ih htypes
      cases hrequired : g.required with
      | false => simpa [h.required, hrequired] using hrest
      | true =>
          simp only [List.filter_cons, h.required, hrequired, if_true, fieldParams,
            declareFields, htype, h.name] at hrest ⊢
          rw [hrest]

/-! ## Setters -/

/-- The setter that takes a value of a type as it is. -/
def setter (field : Field) (type : Json) : Builder where
  method := "with" ++ Text.capitalizeFirst field.name
  field := field.name
  params := [{ name := field.name, type, comment := .str [] }]
  nestedClass := .null
  wrapsOptional := (fieldRef field).isNullable

theorem setter_injective (field : Field) : Function.Injective (setter field) := by
  intro type type' heq
  simpa [setter] using heq

theorem setter_congr {f g : Field} (h : f.Matches g) : setter f = setter g := by
  funext type
  simp [setter, h.name, h.isNullable]

/-- The setter that makes the value of a field from parameters. -/
def maker (field : Field) (params : List Param) (nested : ClassType) : Builder where
  method := "with" ++ Text.capitalizeFirst field.name
  field := field.name
  params
  nestedClass := nested.name
  wrapsOptional := false

theorem nestedBuilder?_ok {field : Field} {nested? : Option Builder}
    (hnested : nestedBuilder? catalogue field = .ok nested?) :
    (¬catalogue.Makes field ∧ nested? = none) ∨
      ∃ nested params, catalogue.Makes field ∧
        catalogue.global? (fieldRef field).name = some (.ofClass nested) ∧
        fieldParams (nested.fields.filter (·.required)) = .ok params ∧
        nested? = some (maker field params nested) := by
  unfold nestedBuilder? at hnested
  by_cases hkind : (fieldRef field).kind = .classType
  · have hlookUp : catalogue.lookUp (fieldRef field).name =
        .ok (catalogue.global? (fieldRef field).name) := by
      cases hkey : (fieldRef field).name.isKey with
      | true => simp [Catalogue.lookUp, hkey]
      | false => simp [Catalogue.lookUp, hkey, hkind, bind, Except.bind] at hnested
    simp only [hkind, hlookUp, ne_eq, not_true_eq_false, if_false, bind, Except.bind,
      pure, Except.pure] at hnested
    split at hnested
    next nested hfound =>
      split at hnested
      next hempty =>
        refine .inl ⟨?_, by simpa [eq_comm] using hnested⟩
        rintro ⟨-, nested', hfound', hrequired⟩
        obtain rfl : nested = nested' := by simpa [hfound] using hfound'
        simp [hempty] at hrequired
      next hrequired =>
        cases hparams : fieldParams (nested.fields.filter (·.required)) with
        | error failure => simp [hparams] at hnested
        | ok params =>
            refine .inr ⟨nested, params, ⟨hkind, nested, hfound, by simpa using hrequired⟩,
              hfound, hparams, ?_⟩
            simpa [hparams, maker, eq_comm] using hnested
    next hother =>
      refine .inl ⟨?_, by simpa [eq_comm] using hnested⟩
      rintro ⟨-, nested, hfound, -⟩
      exact hother nested hfound
  · refine .inl ⟨fun hmakes => hkind hmakes.1, ?_⟩
    simpa [hkind, pure, Except.pure, eq_comm] using hnested

/-- The setters of a field are those for its types, after the one that makes its
value, if there is one. -/
theorem fieldBuilders_ok {field : Field} {builders : List Builder}
    (hbuilders : fieldBuilders catalogue field = .ok builders) :
    (¬catalogue.Makes field ∧ builders = field.setterTypes.map (setter field)) ∨
      ∃ nested params, catalogue.Makes field ∧
        field.setterTypes = [(fieldRef field).name] ∧
        catalogue.global? (fieldRef field).name = some (.ofClass nested) ∧
        fieldParams (nested.fields.filter (·.required)) = .ok params ∧
        builders = [maker field params nested, setter field (fieldRef field).name] := by
  unfold fieldBuilders at hbuilders
  by_cases hunion : (fieldRef field).isUnion = true
  · refine .inl ⟨?_, ?_⟩
    · rintro ⟨hkind, -⟩
      simp [TypeRef.isUnion, hkind] at hunion
    · simp only [hunion, if_true, pure, Except.pure, Except.ok.injEq] at hbuilders
      subst builders
      simp [Field.setterTypes, hunion, directBuilder, setter, Function.comp_def]
  · have htypes : field.setterTypes = [(fieldRef field).name] := by
      simp [Field.setterTypes, hunion]
    simp only [hunion, if_false, Bool.false_eq_true] at hbuilders
    cases hnested : nestedBuilder? catalogue field with
    | error failure => simp [hnested, bind, Except.bind] at hbuilders
    | ok nested? =>
        obtain rfl : nested?.toList ++ [setter field (fieldRef field).name] = builders := by
          simpa [hnested, bind, Except.bind, pure, Except.pure, directBuilder, setter]
            using hbuilders
        obtain ⟨hmakes, rfl⟩ | ⟨nested, params, hmakes, hfound, hparams, rfl⟩ :=
          nestedBuilder?_ok hnested
        · exact .inl ⟨hmakes, by simp [htypes]⟩
        · exact .inr ⟨nested, params, hmakes, htypes, hfound, hparams, rfl⟩

/-- Setters that take values as they are never are those of a field whose value
can be made: only those of a union are as many, and no class of the name of a
union is named by null. -/
theorem setters_ne_maker {f g : Field} (params : List Param) (type : Json)
    {nested : ClassType} (h : f.Matches g)
    (hfound : catalogue.global? (fieldRef g).name = some (.ofClass nested)) :
    f.setterTypes.map (setter f) ≠ [maker g params nested, setter g type] := by
  intro heq
  by_cases hunion : (fieldRef f).isUnion = true
  · obtain ⟨text, -, htext⟩ := h.text_of_union hunion
    have hsame := (Catalogue.global?_some hfound).2
    rw [htext] at hsame
    have hname : nested.name = .str text := Json.same_str_right.mp hsame
    cases htypes : f.setterTypes with
    | nil => simp [htypes] at heq
    | cons first rest =>
        have hnull : Json.null = nested.name := by
          rw [htypes, List.map_cons] at heq
          exact congrArg Builder.nestedClass (List.cons.inj heq).1
        simp [hname] at hnull
  · have hlength := congrArg List.length heq
    simp [Field.setterTypes, hunion] at hlength

/-- The setters of matching fields are the same exactly if they take the same
types, and make values for both fields or for none. -/
theorem fieldBuilders_eq_iff {f g : Field} {bs cs : List Builder} (h : f.Matches g)
    (hbs : fieldBuilders catalogue f = .ok bs) (hcs : fieldBuilders catalogue g = .ok cs) :
    bs = cs ↔ f.setterTypes = g.setterTypes ∧ (catalogue.Makes f ↔ catalogue.Makes g) := by
  obtain ⟨hmakes, rfl⟩ | ⟨nested, params, hmakes, htypes, hfound, hparams, rfl⟩ :=
    fieldBuilders_ok hbs <;>
  obtain ⟨hmakes', rfl⟩ | ⟨nested', params', hmakes', htypes', hfound', hparams', rfl⟩ :=
    fieldBuilders_ok hcs
  · rw [setter_congr h, List.map_inj_right (fun _ _ heq => setter_injective g heq)]
    simp [hmakes, hmakes']
  · have hne := setters_ne_maker params' (fieldRef g).name h hfound'
    simp [hmakes, hmakes', hne]
  · have hne := setters_ne_maker params (fieldRef f).name h.symm hfound
    simp [hmakes, hmakes', Ne.symm hne]
  · rw [htypes, htypes']
    constructor
    · intro heq
      rw [setter_congr h] at heq
      have hname : (fieldRef f).name = (fieldRef g).name := by
        simpa [setter] using (List.cons.inj (List.cons.inj heq).2).1
      exact ⟨by rw [hname], by simp [hmakes, hmakes']⟩
    · rintro ⟨hname, -⟩
      have hname : (fieldRef f).name = (fieldRef g).name := by simpa using hname
      obtain rfl : nested = nested' := by simpa [hname, hfound'] using hfound.symm
      obtain rfl : params = params' := by simpa [hparams'] using hparams.symm
      simp [maker, h.name, setter_congr h, hname]

/-! ## The setters of a class -/

theorem buildersOf_cons_ok {field : Field} {rest : List Field} {builders : List Builder}
    (hbuilders : buildersOf catalogue (field :: rest) = .ok builders) :
    ∃ first others, builders = first ++ others ∧
      buildersOf catalogue rest = .ok others ∧
      ((field.required = true ∧ first = []) ∨
        (field.required = false ∧ fieldBuilders catalogue field = .ok first)) := by
  unfold buildersOf at hbuilders
  cases hothers : buildersOf catalogue rest with
  | error failure =>
      cases hrequired : field.required with
      | true => simp [hrequired, hothers, bind, Except.bind] at hbuilders
      | false =>
          cases hfirst : fieldBuilders catalogue field <;>
            simp [hrequired, hothers, hfirst, bind, Except.bind] at hbuilders
  | ok others =>
      cases hrequired : field.required with
      | true =>
          refine ⟨[], others, ?_, rfl, .inl ⟨rfl, rfl⟩⟩
          simpa [hrequired, hothers, bind, Except.bind, pure, Except.pure, eq_comm]
            using hbuilders
      | false =>
          cases hfirst : fieldBuilders catalogue field with
          | error failure => simp [hrequired, hfirst, bind, Except.bind] at hbuilders
          | ok first =>
              refine ⟨first, others, ?_, rfl, .inr ⟨rfl, rfl⟩⟩
              simpa [hrequired, hothers, hfirst, bind, Except.bind, pure, Except.pure,
                eq_comm] using hbuilders

theorem field_of_mem_fieldBuilders {field : Field} {builders : List Builder}
    (hbuilders : fieldBuilders catalogue field = .ok builders) :
    ∀ b ∈ builders, b.field = field.name := by
  obtain ⟨-, rfl⟩ | ⟨nested, params, -, -, -, -, rfl⟩ := fieldBuilders_ok hbuilders <;>
    simp [setter, maker]

theorem field_of_mem_buildersOf {fields : List Field} {builders : List Builder}
    (hbuilders : buildersOf catalogue fields = .ok builders) :
    ∀ b ∈ builders, b.field ∈ fields.map Field.name := by
  induction fields generalizing builders with
  | nil =>
      obtain rfl : [] = builders := by simpa [buildersOf] using hbuilders
      simp
  | cons field rest ih =>
      obtain ⟨first, others, rfl, hothers, hfirst⟩ := buildersOf_cons_ok hbuilders
      intro b hb
      rcases List.mem_append.mp hb with hb | hb
      · obtain ⟨-, rfl⟩ | ⟨-, hfirst⟩ := hfirst
        · simp at hb
        · simp [field_of_mem_fieldBuilders hfirst b hb]
      · exact List.mem_cons_of_mem _ (ih hothers b hb)

theorem buildersOf_congr {fs gs : List Field} {bs cs : List Builder}
    (hmatch : List.Forall₂ Field.Matches fs gs) (hset : catalogue.SetsAlike fs gs)
    (hbs : buildersOf catalogue fs = .ok bs) (hcs : buildersOf catalogue gs = .ok cs) :
    bs = cs := by
  induction hmatch generalizing bs cs with
  | nil => simpa [hbs] using hcs
  | cons h _ ih =>
      obtain ⟨hset, hsets⟩ := List.forall₂_cons.mp hset
      obtain ⟨first, others, rfl, hothers, hfirst⟩ := buildersOf_cons_ok hbs
      obtain ⟨first', others', rfl, hothers', hfirst'⟩ := buildersOf_cons_ok hcs
      have hrest : others = others' := ih hsets hothers hothers'
      obtain ⟨hrequired, rfl⟩ | ⟨hrequired, hfirst⟩ := hfirst <;>
        obtain ⟨hrequired', rfl⟩ | ⟨hrequired', hfirst'⟩ := hfirst'
      · simp [hrest]
      · simp [h.required, hrequired'] at hrequired
      · simp [h.required, hrequired'] at hrequired
      · have heq := (fieldBuilders_eq_iff h hfirst hfirst').mpr (hset hrequired)
        rw [heq, hrest]

/-- Two splits of a list are the same if they separate it by a property. -/
theorem append_inj_of_separated {α : Type} (keep : α → Bool) {a a' b b' : List α}
    (ha : ∀ x ∈ a, keep x = true) (ha' : ∀ x ∈ a', keep x = true)
    (hb : ∀ x ∈ b, keep x = false) (hb' : ∀ x ∈ b', keep x = false)
    (heq : a ++ b = a' ++ b') : a = a' ∧ b = b' := by
  have hkept := congrArg (List.filter keep) heq
  have hnone : b.filter keep = [] := List.filter_eq_nil_iff.mpr (by simpa using hb)
  have hnone' : b'.filter keep = [] := List.filter_eq_nil_iff.mpr (by simpa using hb')
  rw [List.filter_append, List.filter_append, List.filter_eq_self.mpr ha,
    List.filter_eq_self.mpr ha', hnone, hnone', List.append_nil, List.append_nil] at hkept
  subst a'
  exact ⟨rfl, List.append_cancel_left heq⟩

theorem setsAlike_of_buildersOf {fs gs : List Field} {bs : List Builder}
    (hmatch : List.Forall₂ Field.Matches fs gs) (hnames : (fs.map Field.name).Nodup)
    (hbs : buildersOf catalogue fs = .ok bs) (hcs : buildersOf catalogue gs = .ok bs) :
    catalogue.SetsAlike fs gs := by
  induction hmatch generalizing bs with
  | nil => exact .nil
  | @cons f g fs gs h hrest ih =>
      obtain ⟨first, others, rfl, hothers, hfirst⟩ := buildersOf_cons_ok hbs
      obtain ⟨first', others', heq, hothers', hfirst'⟩ := buildersOf_cons_ok hcs
      have hsameNames : fs.map Field.name = gs.map Field.name :=
        List.forall₂_eq_eq_eq ▸ (List.forall₂_map_left_iff.mpr
          (List.forall₂_map_right_iff.mpr (hrest.imp fun _ _ h => h.name)))
      obtain ⟨hnew, hnames⟩ := List.nodup_cons.mp hnames
      -- the setters of the first field are told apart by its name
      have hown : ∀ {field : Field} {own : List Builder}, field.name = f.name →
          ((field.required = true ∧ own = []) ∨
            (field.required = false ∧ fieldBuilders catalogue field = .ok own)) →
          ∀ b ∈ own, decide (b.field = f.name) = true := by
        rintro field own hname (⟨-, rfl⟩ | ⟨-, hown⟩) b hb
        · simp at hb
        · simp [field_of_mem_fieldBuilders hown b hb, hname]
      have hothersNames : ∀ b ∈ others, decide (b.field = f.name) = false := by
        intro b hb
        have hmem := field_of_mem_buildersOf hothers b hb
        simp only [decide_eq_false_iff_not]
        intro heq
        exact hnew (heq ▸ hmem)
      have hothersNames' : ∀ b ∈ others', decide (b.field = f.name) = false := by
        intro b hb
        have hmem := field_of_mem_buildersOf hothers' b hb
        simp only [decide_eq_false_iff_not]
        intro heq
        rw [← hsameNames, heq] at hmem
        exact hnew hmem
      obtain ⟨rfl, rfl⟩ := append_inj_of_separated (fun b => decide (b.field = f.name))
        (hown rfl hfirst) (hown h.name.symm hfirst') hothersNames hothersNames' heq
      refine .cons ?_ (ih hnames hothers hothers')
      intro hrequired
      obtain ⟨hrequired', -⟩ | ⟨-, hfirst⟩ := hfirst
      · simp [hrequired] at hrequired'
      · obtain ⟨hrequired', -⟩ | ⟨-, hfirst'⟩ := hfirst'
        · simp [← h.required, hrequired] at hrequired'
        · exact (fieldBuilders_eq_iff h hfirst hfirst').mp rfl

/-! ## Declarations of classes -/

/-- Two matching definitions that are declared alike have the same declaration
up to comments. -/
theorem uncommented_eq_of_declaredLike {a b : ClassType} {c d : Class}
    (hmatch : List.Forall₂ Field.Matches a.fields b.fields) (hscope : a.scope = b.scope)
    (hc : Class.of catalogue a = .ok c) (hd : Class.of catalogue b = .ok d)
    (hlike : a.DeclaredLike catalogue b) : c.uncommented = d.uncommented := by
  obtain ⟨hname, hfields, hparams, hbuilders, hreturn, hpublic⟩ := Class.of_ok hc
  obtain ⟨hname', hfields', hparams', hbuilders', hreturn', hpublic'⟩ := Class.of_ok hd
  have hfieldsEq : c.fields.map Param.uncommented = d.fields.map Param.uncommented :=
    (declareFields_uncommented_iff hmatch hfields hfields').mpr hlike.spelled.fields
  have hparamsEq : c.constructorParams = d.constructorParams := by
    rw [← hlike.isReturnType, ← fieldParams_congr hmatch hlike.spelled.fields] at hparams'
    exact Except.ok.inj (hparams.symm.trans hparams')
  have hbuildersEq : c.builders = d.builders := by
    rw [← hlike.isReturnType] at hbuilders'
    cases hkind : a.isReturnType with
    | true =>
        rw [hkind] at hbuilders hbuilders'
        exact Except.ok.inj (hbuilders.symm.trans hbuilders')
    | false =>
        rw [hkind] at hbuilders hbuilders'
        exact buildersOf_congr hmatch (hlike.setters hkind) hbuilders hbuilders'
  obtain ⟨name, fields, params, builders, isReturnType, isPublic⟩ := c
  obtain ⟨name', fields', params', builders', isReturnType', isPublic'⟩ := d
  simp only [Class.uncommented, Class.mk.injEq]
  refine ⟨?_, hfieldsEq, hparamsEq, hbuildersEq, ?_, ?_⟩
  · exact hname.trans (hlike.spelled.name.trans hname'.symm)
  · exact hreturn.trans (hlike.isReturnType.trans hreturn'.symm)
  · rw [show isPublic = _ from hpublic, show isPublic' = _ from hpublic', hscope]

/-- Two matching definitions without repeated names of fields are declared alike
if they have the same declaration up to comments. -/
theorem declaredLike_of_uncommented_eq {a b : ClassType} {c d : Class}
    (hmatch : List.Forall₂ Field.Matches a.fields b.fields)
    (hnames : (a.fields.map Field.name).Nodup)
    (hc : Class.of catalogue a = .ok c) (hd : Class.of catalogue b = .ok d)
    (heq : c.uncommented = d.uncommented) : a.DeclaredLike catalogue b := by
  obtain ⟨hname, hfields, -, hbuilders, hreturn, -⟩ := Class.of_ok hc
  obtain ⟨hname', hfields', -, hbuilders', hreturn', -⟩ := Class.of_ok hd
  have hnameEq : c.name = d.name := (congrArg Class.name heq :)
  have hfieldsEq : c.fields.map Param.uncommented = d.fields.map Param.uncommented :=
    (congrArg Class.fields heq :)
  have hbuildersEq : c.builders = d.builders := (congrArg Class.builders heq :)
  have hreturnEq : c.isReturnType = d.isReturnType :=
    (congrArg Class.isReturnType heq :)
  have hkind : a.isReturnType = b.isReturnType :=
    hreturn.symm.trans (hreturnEq.trans hreturn')
  refine ⟨⟨?_, ?_⟩, hkind, ?_⟩
  · exact hname.symm.trans (hnameEq.trans hname')
  · exact (declareFields_uncommented_iff hmatch hfields hfields').mp hfieldsEq
  · intro hfalse
    rw [hfalse] at hbuilders
    rw [← hkind, hfalse, ← hbuildersEq] at hbuilders'
    exact setsAlike_of_buildersOf hmatch hnames hbuilders hbuilders'

end Surface

/-! ## Registering a class again -/

/-- The class and the types of its fields are named by texts. -/
structure ClassType.NamedByTexts (type : ClassType) : Prop where
  name : ∃ text, type.name = .str text
  fields : ∀ field ∈ type.fields, ∃ text, (fieldRef field).name = .str text

theorem ClassType.IsGlobal.matches {a b : ClassType} (ha : a.IsGlobal TypeRef.NamesUnion)
    (hb : b.IsGlobal TypeRef.NamesUnion)
    (hagrees : b.agrees a = true) : List.Forall₂ Field.Matches a.fields b.fields := by
  have hfields := ClassType.agrees_iff.mp hagrees
  have htyped := ha.typed
  have htyped' := hb.typed
  generalize a.fields = fs at hfields htyped ⊢
  generalize b.fields = gs at hfields htyped' ⊢
  induction hfields with
  | nil => exact .nil
  | cons h _ ih =>
      obtain ⟨r, hr, hunion⟩ := htyped _ List.mem_cons_self
      obtain ⟨r', hr', hunion'⟩ := htyped' _ List.mem_cons_self
      refine .cons (.of_agrees h hr hr' hunion hunion') (ih ?_ ?_)
      · exact fun f hf => htyped f (List.mem_cons_of_mem _ hf)
      · exact fun g hg => htyped' g (List.mem_cons_of_mem _ hg)

theorem ClassType.spelledLike_of_texts {a b : ClassType}
    (hmatch : List.Forall₂ Field.Matches a.fields b.fields)
    (hname : b.name.same a.name = true) (htexts : a.NamedByTexts) : a.SpelledLike b := by
  constructor
  · obtain ⟨text, htext⟩ := htexts.name
    rw [htext] at hname ⊢
    exact (Json.same_str_right.mp hname).symm
  · have hfields := htexts.fields
    generalize a.fields = fs at hmatch hfields ⊢
    generalize b.fields = gs at hmatch ⊢
    induction hmatch with
    | nil => exact .nil
    | cons h _ ih =>
        refine .cons ?_ (ih fun f hf => hfields f (List.mem_cons_of_mem _ hf))
        obtain ⟨text, htext⟩ := hfields _ List.mem_cons_self
        simp only [fieldType, h.isNullable, h.required, htext, (h.texts text).mp htext]

theorem ClassType.DeclaredLike.refl (catalogue : Catalogue) (type : ClassType) :
    type.DeclaredLike catalogue type where
  spelled := ⟨rfl, List.forall₂_same.mpr fun _ _ => rfl⟩
  isReturnType := rfl
  setters _ := List.forall₂_same.mpr fun _ _ _ => ⟨rfl, Iff.rfl⟩

/-- A class built from a record at any time, and the one that is registered for
it, have the same declaration up to comments if they are declared alike, and
only then unless the record repeats a name.  They are spelled alike as long as
all names are texts. -/
theorem addClass_declaredLike {settings : Settings} {known after : Knowledge}
    {owner : Owner} {address : Address} {plan : ClassPlan} {path : Text}
    {properties : List (Slot TypeNode)} {fields : List Field} {existing : ClassType}
    {catalogue final : Catalogue} {c e : Surface.Class}
    (hreached : known.Reached settings)
    (hscope : plan.scope = .global)
    (hfields : Resolving.outcome (convertFields settings owner address
      plan.name.display 0 properties) known = (.ok fields, after))
    (hadd : after.catalogue.addClass (plan.classType path fields) = .ok (existing, catalogue))
    (hc : Surface.Class.of final (plan.classType path fields) = .ok c)
    (he : Surface.Class.of final existing = .ok e) :
    ((plan.classType path fields).DeclaredLike final existing →
      c.uncommented = e.uncommented) ∧
    ((fields.map Field.name).Nodup → c.uncommented = e.uncommented →
      (plan.classType path fields).DeclaredLike final existing) ∧
    ((plan.classType path fields).NamedByTexts →
      (plan.classType path fields).SpelledLike existing) := by
  let C := Resolving.keptContract (TypeRef.kept_namesUnion settings)
  have hknown : known.Keeps TypeRef.NamesUnion :=
    C.inv_of_reached hreached (fun _ _ => trivial) (fun _ _ => trivial) Knowledge.keeps_empty
  obtain ⟨-, hafter, htyped⟩ :=
    (C.meets_convertFields plan.name.display 0 properties trivial hknown).of_ok hfields
  have hnew : (plan.classType path fields).IsGlobal TypeRef.NamesUnion := by
    refine ⟨hscope, fun field hfield => ?_⟩
    obtain ⟨position, ref, htype, hunion⟩ := htyped field hfield
    exact ⟨ref, htype, hunion⟩
  obtain ⟨-, ⟨hlocal, -⟩ | ⟨hlocal, -⟩ | ⟨-, -, rfl, -⟩ | ⟨-, hfound, hagrees, -⟩⟩ :=
    Catalogue.addClass_ok hadd
  · exact absurd (hscope.symm.trans hlocal) (by simp)
  · exact absurd (hscope.symm.trans hlocal) (by simp)
  · obtain rfl : c = e := Except.ok.inj (hc.symm.trans he)
    exact ⟨fun _ => rfl, fun _ _ => .refl _ _,
      fun _ => (ClassType.DeclaredLike.refl final _).spelled⟩
  · obtain ⟨hmem, hname⟩ := Catalogue.global?_some hfound
    have hold := hafter.globals existing hmem
    have hmatch := hnew.matches hold hagrees
    refine ⟨?_, ?_, ?_⟩
    · exact Surface.uncommented_eq_of_declaredLike hmatch (hscope.trans hold.scope.symm) hc he
    · intro hnames
      exact Surface.declaredLike_of_uncommented_eq hmatch hnames hc he
    · exact ClassType.spelledLike_of_texts hmatch hname

/-! ## A class that is returned first and then taken -/

/-- What `Page.size` returns. -/
def sizeReturned : Owner := ⟨"Page.size", .method, "size", "Page", "Page"⟩

/-- What `Page.resize` takes. -/
def sizeTaken : Owner := ⟨"Page.resize.size", .param, "size", "resize", "Page"⟩

/-- What `Page.grow` takes. -/
def growthTaken : Owner := ⟨"Page.grow.size", .param, "size", "grow", "Page"⟩

/-- A record with one property. -/
def widthOf (required : Bool) (type : TypeNode) : List (Slot TypeNode) :=
  [{ name := "width", path := "width", type, required, comment := .str [] }]

/-- What is known when the record of an owner has been resolved. -/
def knownAfter (owner : Owner) (properties : List (Slot TypeNode)) : Knowledge :=
  (Resolving.outcome (resolve .defaults owner [0]
    (some (.record owner.path properties))) .empty).2

theorem addClass_declaredLike_size :
    ∃ plan fields after existing catalogue c e,
      ClassPlan.of .defaults sizeTaken = .ok plan ∧
      Resolving.outcome (convertFields .defaults sizeTaken [1] plan.name.display 0
          (widthOf true (.primitive "int" "width")))
        (knownAfter sizeReturned (widthOf true (.primitive "int" "width"))) =
          (.ok fields, after) ∧
      after.catalogue.addClass (plan.classType sizeTaken.path fields) =
        .ok (existing, catalogue) ∧
      Surface.Class.of catalogue (plan.classType sizeTaken.path fields) = .ok c ∧
      Surface.Class.of catalogue existing = .ok e ∧
      ((plan.classType sizeTaken.path fields).DeclaredLike catalogue existing →
        c.uncommented = e.uncommented) ∧
      ((fields.map Field.name).Nodup → c.uncommented = e.uncommented →
        (plan.classType sizeTaken.path fields).DeclaredLike catalogue existing) ∧
      ((plan.classType sizeTaken.path fields).NamedByTexts →
        (plan.classType sizeTaken.path fields).SpelledLike existing) := by
  let plan : ClassPlan := ⟨.str "Size", .global, none, false⟩
  let fields : List Field := [⟨"width", some (.builtin "int"), true, .str []⟩]
  let run := Resolving.outcome (convertFields .defaults sizeTaken [1] plan.name.display 0
    (widthOf true (.primitive "int" "width")))
    (knownAfter sizeReturned (widthOf true (.primitive "int" "width")))
  let existing : ClassType := ⟨.str "Size", fields, .global, none, "Page.size", true⟩
  let params : List Surface.Param := [⟨"width", .str "int", .str []⟩]
  have hfields : run = (.ok fields, run.2) := rfl
  have hadd : run.2.catalogue.addClass (plan.classType sizeTaken.path fields) =
      .ok (existing, run.2.catalogue) := rfl
  have hc : Surface.Class.of run.2.catalogue (plan.classType sizeTaken.path fields) =
      .ok ⟨.str "Size", params, params, [], false, true⟩ := rfl
  have he : Surface.Class.of run.2.catalogue existing =
      .ok ⟨.str "Size", params, [], [], true, true⟩ := rfl
  exact ⟨plan, fields, run.2, existing, run.2.catalogue, _, _, rfl, hfields, hadd, hc, he,
    addClass_declaredLike (.resolve _ _ _ .empty) rfl hfields hadd hc he⟩

/-- The declaration that a record asks for when it is resolved second, and that of
the class which is registered for it. -/
def declaredSecond (first second : Owner) (properties properties' : List (Slot TypeNode)) :
    Option (Surface.Class × Surface.Class) := do
  let plan ← (ClassPlan.of .defaults second).toOption
  let (fields, after) := Resolving.outcome
    (convertFields .defaults second [1] plan.name.display 0 properties')
    (knownAfter first properties)
  let new := plan.classType second.path (← fields.toOption)
  let (existing, catalogue) ← (after.catalogue.addClass new).toOption
  return (← (Surface.Class.of catalogue new).toOption,
    ← (Surface.Class.of catalogue existing).toOption)

/-- A class that is returned first loses its constructor, and one whose field may
be anything first loses the setters for the variants of a union. -/
theorem declaredSecond_loses :
    ((declaredSecond sizeReturned sizeTaken (widthOf true (.primitive "int" "width"))
        (widthOf true (.primitive "int" "width"))).map fun (c, e) =>
      (c.constructorParams.length, e.constructorParams.length)) = some (1, 0) ∧
    ((declaredSecond sizeTaken growthTaken (widthOf false (.primitive "any" "width"))
        (widthOf false (.union "" "width"
          [.primitive "string" "width", .primitive "float" "width"]))).map fun (c, e) =>
      (c.builders.length, e.builders.length)) = some (2, 1) := by
  constructor <;> decide +kernel

end ApiBindings
