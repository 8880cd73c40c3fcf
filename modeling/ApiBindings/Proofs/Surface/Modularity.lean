import ApiBindings.Proofs.Surface.Mirror
/-!
# Modularity of declaring

What an interface is declared like does not depend on the other interfaces.
Whatever part of an accepted description is taken, and in whatever order, it is
accepted, too, and declares part of what the whole declares.

The part is run as a mirror of the whole, one interface at a time.  As a mirror
of itself, the whole shows that the classes it ends with are lawful; a class of
the part then has the fields of the one that it agrees with there.
-/

namespace ApiBindings

open Surface
open Resolving (outcome outcome_bind outcome_pure Proper)

/-! ## The whole -/

/-- None of these interfaces has been declared, nor anything at the positions from
this one on. -/
def Knowledge.Unstarted (interfaces : List ApiBindings.Interface) (position : Nat)
    (known : Knowledge) : Prop :=
  known.Untouched (interfaces.map (·.name)) fun address => ∃ p, position ≤ p ∧ address = [p]

theorem Knowledge.unstarted_empty (interfaces : List ApiBindings.Interface) :
    Knowledge.empty.Unstarted interfaces 0 where
  locals _ _ := rfl
  memory _ _ entry hentry := by simp [Knowledge.empty] at hentry

section
variable {settings : Settings} {full : Catalogue} {interface : ApiBindings.Interface}
  {rest : List ApiBindings.Interface} {position : Nat} {known : Knowledge}

theorem Knowledge.Unstarted.clear
    (hunstarted : known.Unstarted (interface :: rest) position) : known.Clear [position] :=
  hunstarted.memory _ ⟨position, Nat.le_refl _, rfl⟩

theorem Knowledge.Unstarted.localClasses
    (hunstarted : known.Unstarted (interface :: rest) position) :
    known.catalogue.localClasses interface.name = [] :=
  hunstarted.locals _ (by simp)

/-- Declaring an interface leaves those after it undeclared. -/
theorem Knowledge.Unstarted.next {declared : Surface.Interface} {after : Knowledge}
    (hnew : interface.name ∉ rest.map (·.name))
    (hunstarted : known.Unstarted (interface :: rest) position)
    (hrun : outcome (declareInterface settings [position] interface) known =
      (.ok declared, after)) : after.Unstarted rest (position + 1) := by
  have hsuits : ∀ index, (Resolving.untouchedContract settings (rest.map (·.name))
      fun address => ∃ p, position + 1 ≤ p ∧ address = [p]).SuitsMember interface
        [index, position] := by
    rintro index owner index' howner
    refine ⟨howner ▸ hnew, ?_⟩
    rintro _ ⟨p, hp, rfl⟩
    exact ((Address.apart_of_ne (by omega) []).property index).property index'
  have hrest : known.Unstarted rest (position + 1) :=
    ⟨fun name hname => hunstarted.locals name (List.mem_cons_of_mem _ hname),
      fun address haddress => hunstarted.memory address
        (haddress.imp fun p hp => ⟨by omega, hp.2⟩)⟩
  exact ((Resolving.Contract.meets_declareInterface hsuits hrest).of_ok hrun).2.1

theorem declareInterfaces_growsTo {interfaces : List ApiBindings.Interface}
    {declared : List Surface.Interface} {after : Knowledge}
    (hrun : outcome (declareInterfaces settings position interfaces) known =
      (.ok declared, after)) : known.GrowsTo after :=
  ((Resolving.Contract.meets_declareInterfaces
    (C := Resolving.untouchedContract settings [] fun _ => False)
    (fun _ _ => ⟨by simp, by simp⟩) ⟨by simp, by simp⟩).of_ok hrun).1

/-- An accepted description declares each of its interfaces where nothing of it is
known, and is its own mirror. -/
theorem declareInterfaces_declared (hproper : Proper settings full)
    {interfaces : List ApiBindings.Interface} {declared : List Surface.Interface}
    {after : Knowledge} (hnames : (interfaces.map (·.name)).Nodup)
    (hunstarted : known.Unstarted interfaces position)
    (hwithin : known.Within settings full)
    (hrun : outcome (declareInterfaces settings position interfaces) known =
      (.ok declared, after))
    (hfull : after.catalogue.GrowsTo full) :
    List.Forall₂ (Declared settings full) interfaces declared ∧
      after.Within settings full := by
  induction interfaces generalizing position known declared with
  | nil =>
      obtain ⟨rfl, rfl⟩ : [] = declared ∧ known = after := by
        simpa [declareInterfaces] using hrun
      exact ⟨.nil, hwithin⟩
  | cons interface rest ih =>
      obtain ⟨first, others, middle, rfl, hfirst, hothers⟩ := declareInterfaces_cons_ok hrun
      obtain ⟨hnew, hnames⟩ := List.nodup_cons.mp hnames
      have hdeclared : Declared settings full interface first :=
        ⟨position, known, middle, hfirst, hunstarted.clear, hunstarted.localClasses,
          (declareInterfaces_growsTo hothers).catalogue.trans hfull⟩
      -- Mirrored from what it starts with itself, a run can only end where it ends.
      have hmiddle : middle.Within settings full := by
        obtain ⟨-, middle', -, hmembers', hwithin'⟩ :=
          hdeclared.exists_declareMembers hproper hwithin hunstarted.clear
            hunstarted.localClasses
        obtain ⟨-, -, -, hmembers, -⟩ := declareInterface_ok hfirst
        rw [hmembers] at hmembers'
        obtain rfl : middle = middle' := (Prod.ext_iff.mp hmembers').2
        exact hwithin'
      obtain ⟨hrest, hafter⟩ :=
        ih hnames (hunstarted.next hnew hfirst) hmiddle hothers
      exact ⟨.cons hdeclared hrest, hafter⟩

/-! ## A part -/

/-- Interfaces that the whole run declares are declared again, in any order, as long as
they have distinct names. -/
theorem exists_declareInterfaces (hproper : Proper settings full)
    (hfieldable : ∀ known : Knowledge, known.Within settings full → Fieldable known.catalogue)
    {selection : List ApiBindings.Interface} {declared : List Surface.Interface}
    (hselection : ∀ interface ∈ selection, ∃ d ∈ declared, Declared settings full interface d)
    (hnames : (selection.map (·.name)).Nodup)
    (hunstarted : known.Unstarted selection position)
    (hwithin : known.Within settings full) :
    ∃ part after,
      outcome (declareInterfaces settings position selection) known = (.ok part, after) ∧
      part.map (·.name) = selection.map (·.name) ∧
      (∀ p ∈ part, ∃ d ∈ declared, p.withoutBuilders = d.withoutBuilders) ∧
      after.Within settings full := by
  induction selection generalizing position known with
  | nil => exact ⟨[], known, rfl, rfl, by simp, hwithin⟩
  | cons interface rest ih =>
      obtain ⟨⟨d, hd, hdeclared⟩, hrest⟩ := List.forall_mem_cons.mp hselection
      obtain ⟨hnew, hnames⟩ := List.nodup_cons.mp hnames
      obtain ⟨first, middle, hfirst, hsame, hmiddle⟩ :=
        hdeclared.exists_declareInterface hproper hfieldable hwithin hunstarted.clear
          hunstarted.localClasses
      obtain ⟨others, after, hothers, hnames', hothers', hafter⟩ :=
        ih hrest hnames (hunstarted.next hnew hfirst) hmiddle
      refine ⟨first :: others, after, ?_, ?_, ?_, hafter⟩
      · unfold declareInterfaces
        simp only [outcome_bind, hfirst, hothers, outcome_pure]
      · rw [List.map_cons, List.map_cons, hnames', (declareInterface_ok hfirst).1]
      · exact List.forall_mem_cons.mpr ⟨⟨d, hd, hsame⟩, hothers'⟩

end

/-! ## Global types -/

section
variable {settings : Settings} {full : Catalogue} {known : Knowledge}

/-- The full run ends with lawful classes that can be declared. -/
structure Complete (settings : Settings) (full : Catalogue) (classes : List Surface.Class) :
    Prop where
  lawful : ∀ type, .ofClass type ∈ full.globals → type.Lawful settings
  declared : classesOf full full.globalClasses = .ok classes

/-- The class of the full run that one within it agrees with. -/
theorem Complete.exists_class {classes : List Surface.Class}
    (hcomplete : Complete settings full classes) (hwithin : known.Within settings full)
    {type : ClassType} (htype : .ofClass type ∈ known.catalogue.globals) :
    ∃ first, ∃ d ∈ classes, Class.of full first = .ok d ∧ first.Lawful settings ∧
      first.name.same type.name = true ∧ first.agrees type = true := by
  obtain ⟨first, hfound, hagrees⟩ := hwithin.admitted _ htype
  obtain ⟨hmem, hsame⟩ := Catalogue.global?_some hfound
  obtain ⟨d, hd, hof⟩ :=
    exists_declared_of_mem hcomplete.declared first (mem_globalClasses.mpr hmem)
  exact ⟨first, d, hd, hof, hcomplete.lawful first hmem, hsame, hagrees⟩

theorem Complete.fieldable {classes : List Surface.Class}
    (hcomplete : Complete settings full classes) (hwithin : known.Within settings full) :
    Fieldable known.catalogue := by
  intro type htype
  obtain ⟨first, d, -, hd, hlawful, -, hagrees⟩ := hcomplete.exists_class hwithin htype
  exact exists_fieldType_of_agrees hagrees hlawful (hwithin.lawful type htype) hd

theorem Complete.exists_classesOf {classes : List Surface.Class}
    (hcomplete : Complete settings full classes) (hwithin : known.Within settings full) :
    ∃ part, classesOf known.catalogue known.catalogue.globalClasses = .ok part ∧
      ∀ c ∈ part, ∃ d ∈ classes, c.SameFields d := by
  have hfieldable := hcomplete.fieldable hwithin
  obtain ⟨part, hpart⟩ := Surface.exists_classesOf hfieldable
    fun type htype => hfieldable type (mem_globalClasses.mp htype)
  refine ⟨part, hpart, fun c hc => ?_⟩
  obtain ⟨type, htype, hof⟩ := exists_type_of_mem hpart c hc
  have hmem := mem_globalClasses.mp htype
  have hlawful := hwithin.lawful type hmem
  obtain ⟨first, d, hd, hof', hlawful', hsame, hagrees⟩ := hcomplete.exists_class hwithin hmem
  have hname : type.name.same first.name = true := Json.same_symm _ _
    (Json.proper_of_isKey hlawful'.name) (Json.proper_of_isKey hlawful.name) hsame
  exact ⟨d, hd, sameFields_of_agrees hname hagrees hlawful' hlawful hof' hof⟩

theorem Knowledge.Within.exists_enum (hwithin : known.Within settings full) {enum : EnumType}
    (henum : enum ∈ known.catalogue.globalEnums) :
    ∃ first ∈ full.globalEnums, enum.name = first.name ∧ enum.values = first.values := by
  obtain ⟨first, hfound, hvalues⟩ := hwithin.admitted _ (mem_globalEnums.mp henum)
  obtain ⟨hmem, hsame⟩ := Catalogue.global?_some hfound
  have hname : first.name = enum.name := by
    simpa [NominalType.name] using Json.same_str_right.mp hsame
  exact ⟨first, mem_globalEnums.mpr hmem, hname.symm, hvalues.symm⟩

end

/-! ## The part and the whole -/

/-- Whatever one surface declares, the other one does, too: interfaces alike but for the
setters of their nested classes, global classes with the same fields and enums with the
same values. -/
structure Surface.PartOf (part whole : Surface) : Prop where
  interfaces : ∀ p ∈ part.interfaces, ∃ w ∈ whole.interfaces,
    p.withoutBuilders = w.withoutBuilders
  classes : ∀ p ∈ part.classes, ∃ w ∈ whole.classes, p.SameFields w
  enums : ∀ p ∈ part.enums, ∃ w ∈ whole.enums, p.name = w.name ∧ p.values = w.values

variable {settings : Settings} {interfaces selection : List ApiBindings.Interface}
  {surface : Surface}

theorem exists_part (hsettings : settings.ProperTargets)
    (hnames : (interfaces.map (·.name)).Nodup)
    (haccepted : declare settings interfaces = .ok surface)
    (hselection : selection.Subperm interfaces) :
    ∃ part, declare settings selection = .ok part ∧
      part.interfaces.map (·.name) = selection.map (·.name) ∧ part.PartOf surface := by
  obtain ⟨whole, hrun, hclasses, henums⟩ := declare_ok haccepted
  have hproper : Proper settings whole.catalogue := by
    refine ⟨hsettings, ?_⟩
    let C := Resolving.keptContract (TypeRef.kept_proper hsettings)
    have hwhole := ((C.meets_declareInterfaces (fun _ _ => trivial)
      Knowledge.keeps_empty).of_ok hrun).2.1
    exact fun type htype => (hwhole.globals type htype).properNames
  obtain ⟨hdeclared, hwhole⟩ := declareInterfaces_declared hproper hnames
    (Knowledge.unstarted_empty interfaces) Knowledge.within_empty hrun (.refl _)
  have hcomplete : Complete settings whole.catalogue surface.classes :=
    ⟨hwhole.lawful, hclasses⟩
  have hpart : ∀ interface ∈ selection, ∃ d ∈ surface.interfaces,
      Declared settings whole.catalogue interface d :=
    fun interface hinterface =>
      exists_of_mem_left hdeclared interface (hselection.subset hinterface)
  have hnames' : (selection.map (·.name)).Nodup := by
    obtain ⟨sub, hperm, hsub⟩ := hselection
    exact (hperm.map _).nodup_iff.mp (hnames.sublist (hsub.map _))
  obtain ⟨part, known, hrun', hsamenames, hpart, hwithin⟩ :=
    exists_declareInterfaces hproper (fun _ => hcomplete.fieldable) hpart hnames'
      (Knowledge.unstarted_empty selection) Knowledge.within_empty
  obtain ⟨classes, hclasses', hsame⟩ := hcomplete.exists_classesOf hwithin
  refine ⟨_, declare_run hrun' hclasses', hsamenames, hpart, hsame, fun e he => ?_⟩
  rw [henums]
  exact hwithin.exists_enum he

/-- Any selection from an accepted description with distinct interfaces, in any order, is
accepted and declares a part of what the description does; if nothing is left out, all
of it.  Settings that were read from text are such as asked for here
(`Settings.ofText_properTargets`). -/
theorem declare_selection (hsettings : settings.ProperTargets)
    (hnames : (interfaces.map (·.name)).Nodup)
    (haccepted : declare settings interfaces = .ok surface)
    (hselection : selection.Subperm interfaces) :
    ∃ part, declare settings selection = .ok part ∧
      part.interfaces.map (·.name) = selection.map (·.name) ∧ part.PartOf surface ∧
      (selection.Perm interfaces → surface.PartOf part) := by
  obtain ⟨part, hpart, hsamenames, hpartof⟩ :=
    exists_part hsettings hnames haccepted hselection
  refine ⟨part, hpart, hsamenames, hpartof, fun hperm => ?_⟩
  have hnames' : (selection.map (·.name)).Nodup := (hperm.map _).nodup_iff.mpr hnames
  obtain ⟨whole, hwhole, -, hwholeof⟩ :=
    exists_part hsettings hnames' hpart hperm.symm.subperm
  obtain rfl : surface = whole := Except.ok.inj (haccepted.symm.trans hwhole)
  exact hwholeof

/-- A size, given by its width. -/
def sizeType : TypeNode :=
  .record "size"
    [{ name := "width", path := "size.width", type := .primitive "int" "size.width"
       required := true, comment := .str [] }]

/-- An interface whose only member is a method that returns this type. -/
def returning (name path : Text) (type : TypeNode) : ApiBindings.Interface where
  name
  path := name
  supertype := .null
  comment := .str []
  members :=
    [{ kind := .method, name := "size", path, type := some type, params := []
       comment := .str [], returnComment := .null, required := true }]

theorem declare_selection_sizes :
    ∃ whole part : Surface,
      declare .defaults [returning "Page" "Page.size" sizeType,
        returning "Frame" "Frame.size" sizeType] = .ok whole ∧
      declare .defaults [returning "Frame" "Frame.size" sizeType,
        returning "Page" "Page.size" sizeType] = .ok part ∧
      part.PartOf whole ∧ whole.PartOf part := by
  cases haccepted : declare .defaults [returning "Page" "Page.size" sizeType,
      returning "Frame" "Frame.size" sizeType] with
  | error failure =>
      have hok : (declare .defaults [returning "Page" "Page.size" sizeType,
          returning "Frame" "Frame.size" sizeType]).toOption.isSome = true := by
        decide +kernel
      simp [haccepted, Except.toOption] at hok
  | ok whole =>
      have hswap := List.Perm.swap (returning "Page" "Page.size" sizeType)
        (returning "Frame" "Frame.size" sizeType) []
      obtain ⟨part, hpart, -, hpartof, hwholeof⟩ :=
        declare_selection Settings.defaults_properTargets (by decide) haccepted hswap.subperm
      exact ⟨whole, part, rfl, hpart, hpartof, hwholeof hswap⟩

end ApiBindings
