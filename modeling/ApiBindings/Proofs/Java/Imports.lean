import ApiBindings.Proofs.Surface.Construction
/-!
# Imports

A file imports what its declaration mentions, but it does not look at the declaration
for it.  The names are collected from some of the type spellings, and neither the
parameters of constructors nor the classes that setters make are among these.  Nothing is
missed all the same: a constructor takes fields of its class, and next to a setter that
makes a value there is one that takes it, spelled with the name of the class.
-/

namespace ApiBindings

/-- A global class or enum of this name is declared. -/
def Surface.DeclaresType (surface : Surface) (name : Text) : Prop :=
  (∃ c ∈ surface.classes, c.name = .str name) ∨ ∃ e ∈ surface.enums, e.name = name

/-- An interface of this name is declared. -/
def Surface.DeclaresInterface (surface : Surface) (name : Text) : Prop :=
  ∃ i ∈ surface.interfaces, i.name = name

namespace Java

/-! ## What is printed -/

/-- The type spellings in the code of a class. -/
def printedByClass (c : Surface.Class) : List Json :=
  c.fields.map (·.type) ++ c.constructorParams.map (·.type) ++
    c.builders.flatMap fun b =>
      b.params.map (·.type) ++ if b.nestedClass.isNull then [] else [b.nestedClass]

/-- The type spellings in the code of a method, which can be a signature as a whole. -/
def printedByMethod (method : Surface.Overload) : List Json :=
  if method.signature.isNull then method.returnType :: method.params.map (·.type)
  else [method.signature]

/-- The type spellings in the code of an interface, its supertypes aside. -/
def printedByInterface (i : Surface.Interface) : List Json :=
  i.listeners.map (fun listener => .str listener.handlerType) ++
    i.methods.flatMap printedByMethod ++ i.nestedClasses.flatMap printedByClass

/-- An identifier in one of these spellings as they are printed. -/
def Mentions (spellings : List Json) (name : Text) : Prop :=
  ∃ spelling ∈ spellings, name ∈ Text.identifiers spelling.display

/-- Complete lines, or nothing. -/
def IsLines (text : Text) : Prop :=
  text = [] ∨ text.getLast? = some (.char '\n')

/-- One of the lines of a text imports this. -/
def HasImport (text path : Text) : Prop :=
  ∃ before after, IsLines before ∧
    text = before ++ line ("import " ++ path ++ ";") ++ after

/-- The text above a declaration imports what these spellings mention: types of the
library one by one, and the other package if a name is declared there. -/
structure ImportsAll (head : Text) (spellings : List Json) (package : Text)
    (declared : Text → Prop) : Prop where
  library : ∀ name path, Mentions spellings name → (name, path) ∈ libraryImports →
    HasImport head path
  package : ∀ name, Mentions spellings name → declared name →
    HasImport head (package ++ ".*")

/-- A file for one of the declarations of a surface, with all imports that it needs. -/
inductive Importing (settings : Settings) (surface : Surface) : File → Prop
  | ofInterface {i : Surface.Interface} {head body : Text} (hdeclared : i ∈ surface.interfaces)
      (hbody : interfaceText i = .ok body)
      (himports : ImportsAll head (printedByInterface i) (typePackage settings)
        surface.DeclaresType) :
      Importing settings surface ⟨i.name ++ ".java", head ++ body⟩
  | ofClass {c : Surface.Class} {head body : Text} (hdeclared : c ∈ surface.classes)
      (hbody : classText c = .ok body)
      (himports : ImportsAll head (printedByClass c) (interfacePackage settings)
        surface.DeclaresInterface) :
      Importing settings surface
        ⟨optionsPackage ++ "/" ++ c.name.display ++ ".java", head ++ body⟩
  | ofEnum {e : EnumType} (hdeclared : e ∈ surface.enums) :
      Importing settings surface (enumFile settings surface.banner e)

/-! ## The lines above a declaration -/

theorem isLines_line (text : Text) : IsLines (line text) :=
  .inr List.getLast?_concat

theorem IsLines.append {a b : Text} (ha : IsLines a) (hb : IsLines b) : IsLines (a ++ b) := by
  rcases hb with rfl | hb
  · rwa [List.append_nil]
  · right
    rw [List.getLast?_append, hb]
    rfl

theorem isLines_flatMap {α : Type} (text : α → Text) (items : List α) :
    IsLines (items.flatMap fun item => line (text item)) := by
  induction items with
  | nil => exact .inl rfl
  | cons item rest ih =>
      rw [List.flatMap_cons]
      exact (isLines_line _).append ih

theorem hasImport_header {settings : Settings} {package banner path : Text}
    {imports : List Text} (hpath : path ∈ imports) :
    HasImport (header settings package imports banner) path := by
  rcases List.append_of_mem hpath with ⟨init, rest, rfl⟩
  have hlicense : IsLines (if settings.licenseHeader.isTruthy then
      line (Text.trim settings.licenseHeader.display) ++ line [] else []) := by
    split
    next => exact (isLines_line _).append (isLines_line _)
    next => exact .inl rfl
  have hbanner : IsLines (if banner.isEmpty then [] else line banner) := by
    split
    next => exact .inl rfl
    next => exact isLines_line _
  have hbefore := (((hlicense.append hbanner).append (isLines_line
    ("package " ++ package ++ ";"))).append (isLines_line [])).append
      (isLines_flatMap (fun path => "import " ++ path ++ ";") init)
  refine ⟨_, (rest.flatMap fun path => line ("import " ++ path ++ ";")) ++
    (if (init ++ path :: rest).isEmpty then [] else line []), hbefore, ?_⟩
  unfold header
  simp only [List.flatMap_append, List.flatMap_cons, List.append_assoc]

/-! ## The names that are looked for -/

theorem identifiers_of_tokens {spellings : List Json} {mentioned : List Text}
    (htokens : tokens spellings = .ok mentioned) :
    ∀ spelling ∈ spellings, ∃ text, spelling = .str text ∧
      Text.identifiers text ⊆ mentioned := by
  induction spellings generalizing mentioned with
  | nil => exact fun _ hmem => nomatch hmem
  | cons spelling rest ih =>
      cases spelling with
      | str text =>
          rcases exists_of_bind_ok htokens with ⟨others, hothers, hall⟩
          obtain rfl : Text.identifiers text ++ others = mentioned := Except.ok.inj hall
          refine List.forall_mem_cons.mpr ⟨?_, ?_⟩
          · exact ⟨text, rfl, List.subset_append_left _ _⟩
          · intro other hother
            rcases ih hothers other hother with ⟨found, hfound, hsubset⟩
            exact ⟨found, hfound, List.Subset.trans hsubset (List.subset_append_right _ _)⟩
      | _ => cases htokens

theorem text_of_tokens {spellings : List Json} {mentioned : List Text}
    (htokens : tokens spellings = .ok mentioned) :
    ∀ spelling ∈ spellings, ∃ text, spelling = .str text := by
  intro spelling hspelling
  rcases identifiers_of_tokens htokens spelling hspelling with ⟨text, htext, -⟩
  exact ⟨text, htext⟩

theorem mem_of_mentions {scanned printed : List Json} {mentioned : List Text}
    (htokens : tokens scanned = .ok mentioned) (hprinted : printed ⊆ scanned) {name : Text}
    (hname : Mentions printed name) : name ∈ mentioned := by
  rcases hname with ⟨spelling, hspelling, hidentifier⟩
  rcases identifiers_of_tokens htokens spelling (hprinted hspelling) with
    ⟨text, rfl, hsubset⟩
  exact hsubset hidentifier

theorem importsAll_header {settings : Settings} {own package banner : Text}
    {names mentioned : List Text} {scanned printed : List Json} {declared : Text → Prop}
    (htokens : tokens scanned = .ok mentioned) (hprinted : printed ⊆ scanned)
    (hnames : ∀ name, declared name → name ∈ names) :
    ImportsAll (header settings own (importsFor package names mentioned) banner) printed
      package declared where
  library name path hname hlibrary := by
    have hmentioned := mem_of_mentions htokens hprinted hname
    have hpath : path ∈ libraryImportsFor mentioned := by
      unfold libraryImportsFor
      rw [List.mem_mergeSort]
      apply List.mem_cons_of_mem
      apply List.mem_filterMap.mpr
      refine ⟨(name, path), hlibrary, ?_⟩
      simp [hmentioned]
    exact hasImport_header (List.mem_append_right _ hpath)
  package name hname hdeclared := by
    have hmentioned := mem_of_mentions htokens hprinted hname
    have hany : mentioned.any names.contains = true := by
      apply List.any_eq_true.mpr
      exact ⟨name, hmentioned, by simpa using hnames name hdeclared⟩
    apply hasImport_header
    unfold importsFor
    rw [if_pos hany]
    exact List.mem_append_left _ (List.mem_singleton.mpr rfl)

/-! ## Spellings that are not looked at -/

section

variable {catalogue : Catalogue} {type : ClassType} {c : Surface.Class}

theorem mem_types_of_declareFields {comment : Field → Json} {fields : List Field}
    {params : List Surface.Param}
    (hparams : Surface.declareFields comment fields = .ok params) (spelling : Json) :
    spelling ∈ params.map (·.type) ↔
      ∃ field ∈ fields, Surface.fieldType field = .ok spelling := by
  induction fields generalizing params with
  | nil =>
      obtain rfl : [] = params := Except.ok.inj hparams
      simp
  | cons field rest ih =>
      rcases Surface.declareFields_cons_ok hparams with
        ⟨type, others, htype, hothers, rfl⟩
      simp [ih hothers, htype, eq_comm]

theorem constructorParams_subset (hshape : Surface.Class.of catalogue type = .ok c) :
    c.constructorParams.map (·.type) ⊆ c.fields.map (·.type) := by
  rcases Surface.Class.of_ok hshape with ⟨-, hfields, hconstructor, -, -, -⟩
  intro spelling hspelling
  split at hconstructor
  next =>
    obtain hnone : [] = c.constructorParams := Except.ok.inj hconstructor
    rw [← hnone] at hspelling
    cases hspelling
  next =>
    rcases (mem_types_of_declareFields hconstructor spelling).mp hspelling with
      ⟨field, hfield, hfieldType⟩
    exact (mem_types_of_declareFields hfields spelling).mpr
      ⟨field, List.mem_of_mem_filter hfield, hfieldType⟩

/-- Next to a setter that makes a value there is one that takes it. -/
theorem exists_setter_of_nestedClass (hshape : Surface.Class.of catalogue type = .ok c)
    {b : Surface.Builder} (hb : b ∈ c.builders) (hmakes : b.nestedClass.isNull = false) :
    ∃ field, Surface.setter field (Surface.fieldRef field).name ∈ c.builders ∧
      b.nestedClass.same (Surface.fieldRef field).name = true := by
  rcases Surface.Class.of_ok hshape with ⟨-, -, -, hbuilders, -, -⟩
  split at hbuilders
  next =>
    obtain hnone : [] = c.builders := Except.ok.inj hbuilders
    rw [← hnone] at hb
    cases hb
  next =>
    rcases Surface.field_of_mem_builders hbuilders hb with ⟨field, own, hown, hmem, hsubset⟩
    rcases Surface.fieldBuilders_ok hown with
      ⟨-, rfl⟩ | ⟨nested, params, -, -, hfound, -, rfl⟩
    · rcases List.mem_map.mp hmem with ⟨spelling, -, rfl⟩
      cases hmakes
    · rcases List.mem_cons.mp hmem with rfl | hsetter
      · exact ⟨field, hsubset (by simp), (Catalogue.global?_some hfound).2⟩
      · obtain rfl := List.mem_singleton.mp hsetter
        cases hmakes

theorem printedByClass_subset (hshape : Surface.Class.of catalogue type = .ok c)
    (htexts : ∀ spelling ∈ classTypes c, ∃ text, spelling = .str text) :
    printedByClass c ⊆ classTypes c := by
  have hparams : ∀ b ∈ c.builders, b.params.map (·.type) ⊆ classTypes c := by
    intro b hb spelling hspelling
    exact List.mem_append_right _ (List.mem_flatMap.mpr ⟨b, hb, hspelling⟩)
  intro spelling hspelling
  unfold printedByClass at hspelling
  rcases List.mem_append.mp hspelling with hown | hset
  · apply List.mem_append_left
    rcases List.mem_append.mp hown with hfield | hconstructor
    · exact hfield
    · exact constructorParams_subset hshape hconstructor
  · rcases List.mem_flatMap.mp hset with ⟨b, hb, hspelling⟩
    rcases List.mem_append.mp hspelling with hparam | hnested
    · exact hparams b hb hparam
    · cases hmakes : b.nestedClass.isNull with
      | true =>
          rw [hmakes] at hnested
          cases hnested
      | false =>
          obtain rfl : spelling = b.nestedClass := by simpa [hmakes] using hnested
          rcases exists_setter_of_nestedClass hshape hb hmakes with ⟨field, hsetter, hsame⟩
          have htaken : (Surface.fieldRef field).name ∈ classTypes c :=
            hparams _ hsetter (List.mem_singleton.mpr rfl)
          rcases htexts _ htaken with ⟨text, htext⟩
          rw [htext] at hsame htaken
          rwa [Json.same_str_right.mp hsame]

theorem printedByInterface_subset {i : Surface.Interface}
    (hshapes : ∀ c ∈ i.nestedClasses, ∃ catalogue type,
      Surface.Class.of catalogue type = .ok c)
    (htexts : ∀ spelling ∈ interfaceTypes i, ∃ text, spelling = .str text) :
    printedByInterface i ⊆ interfaceTypes i := by
  intro spelling hspelling
  unfold printedByInterface at hspelling
  rcases List.mem_append.mp hspelling with hown | hnested
  · exact List.mem_append_left _ hown
  · apply List.mem_append_right
    rcases List.mem_flatMap.mp hnested with ⟨c, hc, hspelling⟩
    rcases hshapes c hc with ⟨catalogue, type, hshape⟩
    have hclass : ∀ spelling ∈ classTypes c, ∃ text, spelling = .str text := by
      intro other hother
      exact htexts other (List.mem_append_right _ (List.mem_flatMap.mpr ⟨c, hc, hother⟩))
    exact List.mem_flatMap.mpr ⟨c, hc, printedByClass_subset hshape hclass hspelling⟩

end

/-! ## The files of a surface -/

theorem mem_of_mem_putFile {file other : File} {batch : List File}
    (hmem : other ∈ putFile file batch) : other = file ∨ other ∈ batch := by
  induction batch with
  | nil => exact .inl (List.mem_singleton.mp hmem)
  | cons first rest ih =>
      unfold putFile at hmem
      split at hmem
      next =>
        rcases List.mem_cons.mp hmem with hfile | hrest
        · exact .inl hfile
        · exact .inr (List.mem_cons_of_mem _ hrest)
      next =>
        rcases List.mem_cons.mp hmem with rfl | hrest
        · exact .inr List.mem_cons_self
        · exact (ih hrest).imp id (List.mem_cons_of_mem _)

theorem mem_of_mem_putFiles {files batch : List File} {file : File}
    (hmem : file ∈ files.foldl (fun batch file => putFile file batch) batch) :
    file ∈ files ∨ file ∈ batch := by
  induction files generalizing batch with
  | nil => exact .inr hmem
  | cons first rest ih =>
      rcases ih hmem with hrest | hput
      · exact .inl (List.mem_cons_of_mem _ hrest)
      · rcases mem_of_mem_putFile hput with rfl | hbatch
        · exact .inl List.mem_cons_self
        · exact .inr hbatch

theorem eachFile_ok {α : Type} {file : α → Except Failure File} {items : List α}
    {files : List File} (hfiles : eachFile file items = .ok files) :
    List.Forall₂ (fun item own => file item = .ok own) items files := by
  induction items generalizing files with
  | nil =>
      obtain rfl : [] = files := Except.ok.inj hfiles
      exact .nil
  | cons item rest ih =>
      obtain ⟨first, hfirst, hrest⟩ := exists_of_bind_ok hfiles
      obtain ⟨others, hothers, hall⟩ := exists_of_bind_ok hrest
      obtain rfl : first :: others = files := Except.ok.inj hall
      exact .cons hfirst (ih hothers)

theorem exists_of_mem_eachFile {α : Type} {file : α → Except Failure File} {items : List α}
    {files : List File} (hfiles : eachFile file items = .ok files) :
    ∀ own ∈ files, ∃ item ∈ items, file item = .ok own :=
  Surface.exists_of_mem_left (eachFile_ok hfiles).flip

section

variable {settings : Settings} {surface : Surface} {names : List Text} {file : File}

theorem importing_interfaceFile {i : Surface.Interface} (hdeclared : i ∈ surface.interfaces)
    (hshapes : ∀ c ∈ i.nestedClasses, ∃ catalogue type,
      Surface.Class.of catalogue type = .ok c)
    (hnames : ∀ name, surface.DeclaresType name → name ∈ names)
    (hfile : interfaceFile settings surface.banner names i = .ok file) :
    Importing settings surface file := by
  rcases exists_of_bind_ok hfile with ⟨body, hbody, hrest⟩
  rcases exists_of_bind_ok hrest with ⟨mentioned, htokens, hmade⟩
  obtain rfl := Except.ok.inj hmade
  have hprinted := printedByInterface_subset hshapes (text_of_tokens htokens)
  exact .ofInterface hdeclared hbody (importsAll_header htokens hprinted hnames)

theorem importing_classFile {c : Surface.Class} (hdeclared : c ∈ surface.classes)
    (hshape : ∃ catalogue type, Surface.Class.of catalogue type = .ok c)
    (hnames : ∀ name, surface.DeclaresInterface name → name ∈ names)
    (hfile : classFile settings surface.banner names c = .ok file) :
    Importing settings surface file := by
  rcases exists_of_bind_ok hfile with ⟨mentioned, htokens, hrest⟩
  rcases exists_of_bind_ok hrest with ⟨body, hbody, hmade⟩
  obtain rfl := Except.ok.inj hmade
  rcases hshape with ⟨catalogue, type, hshape⟩
  have hprinted := printedByClass_subset hshape (text_of_tokens htokens)
  exact .ofClass hdeclared hbody (importsAll_header htokens hprinted hnames)

theorem unitFiles_ok {units : List File} (hunits : unitFiles settings surface = .ok units) :
    ∃ interfaces classes,
      eachFile (interfaceFile settings surface.banner
        (surface.classes.filterMap (·.name.asText?) ++ surface.enums.map (·.name)))
        surface.interfaces = .ok interfaces ∧
      eachFile (classFile settings surface.banner (surface.interfaces.map (·.name)))
        surface.classes = .ok classes ∧
      units = interfaces ++ classes ++ surface.enums.map (enumFile settings surface.banner) := by
  unfold unitFiles at hunits
  dsimp only at hunits
  split at hunits
  next => cases hunits
  next =>
    rcases exists_of_bind_ok hunits with ⟨interfaces, hinterfaces, hrest⟩
    rcases exists_of_bind_ok hrest with ⟨classes, hclasses, hall⟩
    exact ⟨interfaces, classes, hinterfaces, hclasses, (Except.ok.inj hall).symm⟩

theorem mem_of_declaresType {name : Text} (hdeclares : surface.DeclaresType name) :
    name ∈ surface.classes.filterMap (·.name.asText?) ++ surface.enums.map (·.name) := by
  rcases hdeclares with ⟨c, hc, hname⟩ | ⟨e, he, rfl⟩
  · apply List.mem_append_left
    exact List.mem_filterMap.mpr ⟨c, hc, by rw [hname]; rfl⟩
  · apply List.mem_append_right
    exact List.mem_map_of_mem he

theorem importing_files {files : List File}
    (hshapes : ∀ c ∈ surface.classShapes, ∃ catalogue type,
      Surface.Class.of catalogue type = .ok c)
    (hfiles : Java.files settings surface = .ok files) :
    ∀ file ∈ files, Importing settings surface file := by
  rcases exists_of_bind_ok hfiles with ⟨units, hunits, hmerged⟩
  obtain rfl := Except.ok.inj hmerged
  intro file hfile
  have hunit : file ∈ units := (mem_of_mem_putFiles hfile).resolve_right List.not_mem_nil
  rcases unitFiles_ok hunits with ⟨interfaces, classes, hinterfaces, hclasses, rfl⟩
  rcases List.mem_append.mp hunit with hbinding | henum
  · rcases List.mem_append.mp hbinding with hinterface | hclass
    · rcases exists_of_mem_eachFile hinterfaces file hinterface with ⟨i, hi, hown⟩
      have hnested : ∀ c ∈ i.nestedClasses, ∃ catalogue type,
          Surface.Class.of catalogue type = .ok c := by
        intro c hc
        exact hshapes c (List.mem_append_right _ (List.mem_flatMap.mpr ⟨i, hi, hc⟩))
      exact importing_interfaceFile hi hnested (fun _ => mem_of_declaresType) hown
    · rcases exists_of_mem_eachFile hclasses file hclass with ⟨c, hc, hown⟩
      have hnames : ∀ name, surface.DeclaresInterface name →
          name ∈ surface.interfaces.map (·.name) := fun _ => List.mem_map.mpr
      exact importing_classFile hc (hshapes c (List.mem_append_left _ hc)) hnames hown
  · rcases List.mem_map.mp henum with ⟨e, he, rfl⟩
    exact .ofEnum he

end

end Java

/-- Whatever could be generated imports what it mentions: each file belongs to a
declaration of the surface, and above the declaration there is a line for each type of the
library and for the other package, if the declaration mentions a name of theirs. -/
theorem files_importing {settings : Settings} {language : Text}
    {commandLine : Generation.Invocation} {schema : Json} {files : List Java.File}
    (hgenerated : Generation.files settings language commandLine schema = .ok files) :
    ∃ surface, Generation.surface settings language commandLine schema = .ok surface ∧
      ∀ file ∈ files, Java.Importing settings surface file := by
  rcases exists_of_bind_ok hgenerated with ⟨surface, haccepted, hfiles⟩
  rcases Generation.surface_ok haccepted with
    ⟨interfaces, declared, hdeclared, hinterfaces, hclasses⟩
  rcases Surface.declare_ok hdeclared with ⟨known, hrun, hglobals, -⟩
  rw [← hinterfaces] at hrun
  rw [← hclasses] at hglobals
  have hshapes : ∀ c ∈ surface.classShapes, ∃ catalogue type,
      Surface.Class.of catalogue type = .ok c := by
    intro c hc
    rcases Surface.shape_of_mem hrun hglobals c hc with ⟨middle, type, -, hshape⟩
    exact ⟨middle.catalogue, type, hshape⟩
  exact ⟨surface, haccepted, Java.importing_files hshapes hfiles⟩

/-- A page that can be resized and says when it was. -/
def resizedPageJson : Json :=
  pageJson [resizeMethodJson, .obj [("kind", .str "event"), ("name", .str "resized"),
    ("type", .obj [("name", .str "void")])]]

theorem files_importing_resizedPage :
    ∃ files surface,
      Generation.files .defaults "java" (.ok Generation.commandName) resizedPageJson =
        .ok files ∧
      Generation.surface .defaults "java" (.ok Generation.commandName) resizedPageJson =
        .ok surface ∧
      files ≠ [] ∧ ∀ file ∈ files, Java.Importing .defaults surface file := by
  have hsome : (Generation.files .defaults "java" (.ok Generation.commandName)
      resizedPageJson).toOption.any (fun files => !files.isEmpty) = true := by
    decide +kernel
  cases hgenerated : Generation.files .defaults "java" (.ok Generation.commandName)
      resizedPageJson with
  | error failure => simp [hgenerated, Except.toOption] at hsome
  | ok files =>
      rcases files_importing hgenerated with ⟨surface, hsurface, himporting⟩
      rw [hgenerated] at hsome
      have hfiles : files ≠ [] := by simpa [Except.toOption] using hsome
      exact ⟨files, surface, rfl, hsurface, hfiles, himporting⟩

end ApiBindings
