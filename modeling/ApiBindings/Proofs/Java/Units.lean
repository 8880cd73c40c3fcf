import ApiBindings.Proofs.Java.Imports
import Mathlib.Data.List.Perm.Subperm
/-!
# One file for each declaration

Files are told apart by their paths, which are spelled from the names of interfaces, classes
and enums.  The names of global types are unique in the catalogue, but nothing compares the
names of interfaces, be it with each other or with the directory of the types.  Where two
declarations go into one file, the second one replaces the first one there; apart from that,
no declaration is lost.
-/

namespace ApiBindings

namespace Surface

/-- The names of the global classes and enums, as they are written. -/
def typeNames (surface : Surface) : List Text :=
  surface.classes.map (·.name.display) ++ surface.enums.map (·.name)

/-- How many declarations are to have a file of their own. -/
def unitCount (surface : Surface) : Nat :=
  surface.interfaces.length + surface.classes.length + surface.enums.length

/-- No two declarations go into one file. -/
structure FilesApart (surface : Surface) : Prop where
  interfaces : (surface.interfaces.map (·.name)).Nodup
  types : surface.typeNames.Nodup
  apart : ∀ i ∈ surface.interfaces, ∀ name ∈ surface.typeNames,
    i.name ≠ Java.optionsPackage ++ "/" ++ name

/-- The paths of the files that the declarations go into. -/
def unitPaths (surface : Surface) : List Text :=
  surface.interfaces.map (fun i => i.name ++ (".java" : Text)) ++
    surface.typeNames.map (fun name => Java.optionsPackage ++ "/" ++ name ++ (".java" : Text))

theorem nodup_unitPaths_iff (surface : Surface) :
    surface.unitPaths.Nodup ↔ surface.FilesApart := by
  have hinterfaces : (surface.interfaces.map fun i => i.name ++ (".java" : Text)).Nodup ↔
      (surface.interfaces.map (·.name)).Nodup := by
    have hmap : (surface.interfaces.map fun i => i.name ++ (".java" : Text)) =
        (surface.interfaces.map (·.name)).map (· ++ (".java" : Text)) := by simp
    rw [hmap]
    exact List.nodup_map_iff (List.append_left_injective _)
  have htypes : (surface.typeNames.map fun name =>
      Java.optionsPackage ++ "/" ++ name ++ (".java" : Text)).Nodup ↔
      surface.typeNames.Nodup := by
    refine List.nodup_map_iff fun a b hab => ?_
    exact List.append_cancel_left (List.append_cancel_right hab)
  unfold unitPaths
  rw [List.nodup_append, hinterfaces, htypes]
  simp only [List.forall_mem_map, ne_eq, List.append_left_inj]
  exact ⟨fun h => ⟨h.1, h.2.1, h.2.2⟩, fun h => ⟨h.interfaces, h.types, h.apart⟩⟩

end Surface

theorem map_eq_map_of_forall₂ {α β γ : Type} {related : α → β → Prop} {f : α → γ} {g : β → γ}
    (hsame : ∀ a b, related a b → f a = g b) {as : List α} {bs : List β}
    (hall : List.Forall₂ related as bs) : as.map f = bs.map g := by
  induction hall with
  | nil => rfl
  | cons hfirst _ ih => rw [List.map_cons, List.map_cons, ih, hsame _ _ hfirst]

namespace Java

/-- The files are as many as the declarations of a surface, and each declaration is rendered
in one of them. -/
structure HoldsAll (settings : Settings) (surface : Surface) (files : List File) : Prop where
  count : files.length = surface.unitCount
  interfaces : ∀ i ∈ surface.interfaces, ∃ file ∈ files,
    interfaceFile settings surface.banner
      (surface.classes.filterMap (·.name.asText?) ++ surface.enums.map (·.name)) i = .ok file
  classes : ∀ c ∈ surface.classes, ∃ file ∈ files,
    classFile settings surface.banner (surface.interfaces.map (·.name)) c = .ok file
  enums : ∀ e ∈ surface.enums, enumFile settings surface.banner e ∈ files

/-! ## Putting files into a batch -/

section

variable {file : File} {files batch : List File}

theorem map_path_putFile : (putFile file batch).map (·.path) =
    if file.path ∈ batch.map (·.path) then batch.map (·.path)
    else batch.map (·.path) ++ [file.path] := by
  induction batch with
  | nil => rfl
  | cons first rest ih =>
      unfold putFile
      by_cases hsame : first.path = file.path
      · simp [hsame]
      · have hne : file.path ≠ first.path := Ne.symm hsame
        rw [if_neg hsame, List.map_cons, ih]
        simp only [List.map_cons, List.mem_cons, hne, false_or]
        split <;> rfl

theorem putFile_of_not_mem (hnew : file.path ∉ batch.map (·.path)) :
    putFile file batch = batch ++ [file] := by
  induction batch with
  | nil => rfl
  | cons first rest ih =>
      rw [List.map_cons, List.mem_cons, not_or] at hnew
      rw [putFile, if_neg (Ne.symm hnew.1), ih hnew.2]
      rfl

theorem mem_path_putFiles {path : Text} :
    path ∈ (files.foldl (fun batch file => putFile file batch) batch).map (·.path) ↔
      path ∈ batch.map (·.path) ∨ path ∈ files.map (·.path) := by
  induction files generalizing batch with
  | nil => simp
  | cons first rest ih =>
      rw [List.foldl_cons, ih, map_path_putFile, List.map_cons, List.mem_cons]
      split
      next hfirst =>
        constructor
        · exact Or.imp_right .inr
        · rintro (hbatch | rfl | hrest)
          · exact .inl hbatch
          · exact .inl hfirst
          · exact .inr hrest
      next => simp [or_assoc]

theorem nodup_putFiles (hbatch : (batch.map (·.path)).Nodup) :
    ((files.foldl (fun batch file => putFile file batch) batch).map (·.path)).Nodup := by
  induction files generalizing batch with
  | nil => exact hbatch
  | cons first rest ih =>
      apply ih
      rw [map_path_putFile]
      split
      next => exact hbatch
      next hnew => exact List.nodup_append.mpr ⟨hbatch, by simp, by simpa using hnew⟩

theorem putFiles_eq_append (batch : List File) (hnodup : ((batch ++ files).map (·.path)).Nodup) :
    files.foldl (fun batch file => putFile file batch) batch = batch ++ files := by
  induction files generalizing batch with
  | nil => simp
  | cons first rest ih =>
      have hnew : first.path ∉ batch.map (·.path) := by
        intro hmem
        rw [List.map_append, List.map_cons] at hnodup
        exact (List.nodup_append.mp hnodup).2.2 _ hmem _ List.mem_cons_self rfl
      rw [List.foldl_cons, putFile_of_not_mem hnew, ih _ (by simpa using hnodup)]
      simp

/-- Nothing is lost exactly if all paths differ; then the batch is the files themselves. -/
theorem length_putFiles_iff :
    (files.foldl (fun batch file => putFile file batch) []).length = files.length ↔
      (files.map (·.path)).Nodup := by
  constructor
  · intro hlength
    have hsubset : (files.foldl (fun batch file => putFile file batch) []).map (·.path) ⊆
        files.map (·.path) := fun path hpath =>
      (mem_path_putFiles.mp hpath).resolve_left List.not_mem_nil
    have hnodup : ((files.foldl (fun batch file => putFile file batch) []).map (·.path)).Nodup :=
      nodup_putFiles List.nodup_nil
    have hperm := (List.subperm_of_subset hnodup hsubset).perm_of_length_le
      (by simp [hlength])
    exact hperm.nodup_iff.mp hnodup
  · intro hnodup
    rw [putFiles_eq_append [] hnodup, List.nil_append]

end

/-! ## The files of a surface -/

section

variable {settings : Settings} {surface : Surface} {files units : List File}

theorem path_of_interfaceFile {banner : Text} {names : List Text} {i : Surface.Interface}
    {file : File} (hfile : interfaceFile settings banner names i = .ok file) :
    i.name ++ ".java" = file.path := by
  obtain ⟨body, -, hrest⟩ := exists_of_bind_ok hfile
  obtain ⟨mentioned, -, hmade⟩ := exists_of_bind_ok hrest
  rw [← Except.ok.inj hmade]

theorem path_of_classFile {banner : Text} {names : List Text} {c : Surface.Class} {file : File}
    (hfile : classFile settings banner names c = .ok file) :
    optionsPackage ++ "/" ++ c.name.display ++ ".java" = file.path := by
  obtain ⟨mentioned, -, hrest⟩ := exists_of_bind_ok hfile
  obtain ⟨body, -, hmade⟩ := exists_of_bind_ok hrest
  rw [← Except.ok.inj hmade]

theorem map_path_unitFiles (hunits : unitFiles settings surface = .ok units) :
    units.map (·.path) = surface.unitPaths := by
  obtain ⟨interfaces, classes, hinterfaces, hclasses, rfl⟩ := unitFiles_ok hunits
  have hinterfacePaths : surface.interfaces.map (fun i => i.name ++ (".java" : Text)) =
      interfaces.map (·.path) :=
    map_eq_map_of_forall₂ (fun _ _ hown => path_of_interfaceFile hown) (eachFile_ok hinterfaces)
  have hclassPaths : surface.classes.map
      (fun c => optionsPackage ++ "/" ++ c.name.display ++ (".java" : Text)) =
      classes.map (·.path) :=
    map_eq_map_of_forall₂ (fun _ _ hown => path_of_classFile hown) (eachFile_ok hclasses)
  rw [List.map_append, List.map_append, ← hinterfacePaths, ← hclassPaths]
  simp [Surface.unitPaths, Surface.typeNames, Function.comp_def, enumFile]

theorem length_unitFiles (hunits : unitFiles settings surface = .ok units) :
    units.length = surface.unitCount := by
  have hpaths := congrArg List.length (map_path_unitFiles hunits)
  simpa [Surface.unitPaths, Surface.typeNames, Surface.unitCount, Nat.add_assoc] using hpaths

theorem holdsAll_unitFiles (hunits : unitFiles settings surface = .ok units) :
    HoldsAll settings surface units := by
  have hcount := length_unitFiles hunits
  obtain ⟨interfaces, classes, hinterfaces, hclasses, rfl⟩ := unitFiles_ok hunits
  refine ⟨hcount, fun i hi => ?_, fun c hc => ?_, fun e he => ?_⟩
  · obtain ⟨file, hfile, hown⟩ := Surface.exists_of_mem_left (eachFile_ok hinterfaces) i hi
    exact ⟨file, List.mem_append_left _ (List.mem_append_left _ hfile), hown⟩
  · obtain ⟨file, hfile, hown⟩ := Surface.exists_of_mem_left (eachFile_ok hclasses) c hc
    exact ⟨file, List.mem_append_left _ (List.mem_append_right _ hfile), hown⟩
  · exact List.mem_append_right _ (List.mem_map_of_mem he)

theorem holdsAll_iff (hfiles : Java.files settings surface = .ok files) :
    HoldsAll settings surface files ↔ surface.FilesApart := by
  obtain ⟨units, hunits, hmerged⟩ := exists_of_bind_ok hfiles
  obtain rfl := Except.ok.inj hmerged
  rw [← surface.nodup_unitPaths_iff, ← map_path_unitFiles hunits]
  constructor
  · intro hall
    exact length_putFiles_iff.mp (hall.count.trans (length_unitFiles hunits).symm)
  · intro hnodup
    rw [putFiles_eq_append [] hnodup, List.nil_append]
    exact holdsAll_unitFiles hunits

/-- No two files have one path, and there is a file at the path of each declaration. -/
theorem paths_files (hfiles : Java.files settings surface = .ok files) :
    (files.map (·.path)).Nodup ∧ ∀ path, path ∈ files.map (·.path) ↔ path ∈ surface.unitPaths := by
  obtain ⟨units, hunits, hmerged⟩ := exists_of_bind_ok hfiles
  obtain rfl := Except.ok.inj hmerged
  refine ⟨nodup_putFiles List.nodup_nil, fun path => ?_⟩
  rw [mem_path_putFiles, map_path_unitFiles hunits]
  simp

end

end Java

/-! ## The names of global types -/

theorem DistinctlyNamed.nodup {α : Type} {name : α → Json} {things : List α}
    (hthings : DistinctlyNamed name things) : (things.map name).Nodup := by
  rw [List.Nodup, List.pairwise_map]
  refine hthings.once.imp_of_mem fun {a b} ha _ hapart hsame => ?_
  rw [← hsame, Json.same_self_of_isKey (hthings.keys a ha)] at hapart
  cases hapart

namespace Catalogue

/-- Among global types that are named by texts no name is written twice. -/
theorem Named.nodup_display {catalogue : Catalogue} (hnamed : catalogue.Named)
    (htexts : ∀ type ∈ catalogue.globalClasses, ∃ name, type.name = .str name) :
    (catalogue.globalClasses.map (·.name.display) ++
      catalogue.globalEnums.map (·.name)).Nodup := by
  have hglobals : catalogue.globals.Nodup := List.Nodup.of_map _ hnamed.globals.nodup
  have hwritten : ∀ type ∈ catalogue.globalClasses, type.name = .str type.name.display := by
    intro type htype
    obtain ⟨name, hname⟩ := htexts type htype
    rw [hname]
    rfl
  have hclass : ∀ type c, c ∈ NominalType.asClass? type → type = .ofClass c := by
    intro type c hc
    cases type with
    | ofClass own => exact congrArg _ (Option.some.inj hc)
    | ofEnum => cases hc
  have henum : ∀ type e, e ∈ NominalType.asEnum? type → type = .ofEnum e := by
    intro type e he
    cases type with
    | ofClass => cases he
    | ofEnum own => exact congrArg _ (Option.some.inj he)
  have hclasses : (catalogue.globalClasses.map (·.name.display)).Nodup := by
    refine List.Nodup.map_on ?_ (hglobals.filterMap fun a b c ha hb => ?_)
    · intro a ha b hb hsame
      have hname : a.name = b.name := by
        rw [hwritten a ha, hwritten b hb]
        exact congrArg Json.str hsame
      exact NominalType.ofClass.inj
        (hnamed.globals.eq_of_name_eq (mem_globalClasses.mp ha) (mem_globalClasses.mp hb) hname)
    · exact (hclass a c ha).trans (hclass b c hb).symm
  have henums : (catalogue.globalEnums.map (·.name)).Nodup := by
    refine List.Nodup.map_on ?_ (hglobals.filterMap fun a b c ha hb => ?_)
    · intro a ha b hb hsame
      exact NominalType.ofEnum.inj
        (hnamed.globals.eq_of_name_eq (mem_globalEnums.mp ha) (mem_globalEnums.mp hb)
          (congrArg Json.str hsame))
    · exact (henum a c ha).trans (henum b c hb).symm
  refine List.nodup_append.mpr ⟨hclasses, henums, ?_⟩
  rw [List.forall_mem_map]
  intro type htype
  rw [List.forall_mem_map]
  intro enum henum hsame
  have hname : type.name = .str enum.name := by rw [hwritten type htype, hsame]
  cases hnamed.globals.eq_of_name_eq (mem_globalClasses.mp htype) (mem_globalEnums.mp henum)
    hname

end Catalogue

/-- Whatever could be generated has a file at the path of each declaration, and each declaration
has a file of its own exactly if their paths differ.  The names of the global types always differ
if they are texts; those of interfaces need not. -/
theorem files_holdAll_iff {settings : Settings} {language : Text}
    {commandLine : Generation.Invocation} {schema : Json} {files : List Java.File}
    (hgenerated : Generation.files settings language commandLine schema = .ok files) :
    ∃ surface, Generation.surface settings language commandLine schema = .ok surface ∧
      (files.map (·.path)).Nodup ∧
      (∀ path, path ∈ files.map (·.path) ↔ path ∈ surface.unitPaths) ∧
      (Java.HoldsAll settings surface files ↔ surface.FilesApart) ∧
      ((∀ c ∈ surface.classes, ∃ name, c.name = .str name) → surface.typeNames.Nodup) := by
  obtain ⟨surface, haccepted, hfiles⟩ := exists_of_bind_ok hgenerated
  obtain ⟨hnodup, hpaths⟩ := Java.paths_files hfiles
  refine ⟨surface, haccepted, hnodup, hpaths, Java.holdsAll_iff hfiles, fun htexts => ?_⟩
  obtain ⟨interfaces, declared, banner, hdeclared, rfl⟩ := Generation.surface_declared haccepted
  obtain ⟨known, hrun, hclasses, henums⟩ := Surface.declare_ok hdeclared
  have htypes : ∀ type ∈ known.catalogue.globalClasses, ∃ name, type.name = .str name := by
    intro type htype
    obtain ⟨c, hc, hof⟩ := Surface.exists_declared_of_mem hclasses type htype
    obtain ⟨name, hname⟩ := htexts c hc
    exact ⟨name, (Surface.Class.of_ok hof).1.symm.trans hname⟩
  have hdisplay : known.catalogue.globalClasses.map (·.name.display) =
      declared.classes.map (·.name.display) :=
    map_eq_map_of_forall₂ (f := fun type => type.name.display) (g := fun c => c.name.display)
      (fun _ _ hof => congrArg Json.display (Surface.Class.of_ok hof).1.symm)
      (Surface.classesOf_ok.mp hclasses)
  have hnodup := (Surface.declareInterfaces_named hrun).nodup_display htypes
  rw [hdisplay, ← henums] at hnodup
  exact hnodup

theorem files_holdAll_iff_resizedPage :
    ∃ files surface,
      Generation.files .defaults "java" (.ok Generation.commandName) resizedPageJson =
        .ok files ∧
      Generation.surface .defaults "java" (.ok Generation.commandName) resizedPageJson =
        .ok surface ∧
      surface.unitCount = 2 ∧ surface.FilesApart ∧ Java.HoldsAll .defaults surface files ∧
      (files.map (·.path)).Nodup := by
  have hsome : (Generation.files .defaults "java" (.ok Generation.commandName)
      resizedPageJson).toOption.isSome = true := by
    decide +kernel
  have hunits : (Generation.surface .defaults "java" (.ok Generation.commandName)
      resizedPageJson).toOption.any
        (fun surface => surface.unitCount = 2 ∧ surface.unitPaths.Nodup) = true := by
    decide +kernel
  cases hgenerated : Generation.files .defaults "java" (.ok Generation.commandName)
      resizedPageJson with
  | error failure => simp [hgenerated, Except.toOption] at hsome
  | ok files =>
      obtain ⟨surface, hsurface, hnodup, -, hholds, -⟩ := files_holdAll_iff hgenerated
      rw [hsurface] at hunits
      obtain ⟨hcount, hpaths⟩ : surface.unitCount = 2 ∧ surface.unitPaths.Nodup := by
        simpa [Except.toOption] using hunits
      have hapart := surface.nodup_unitPaths_iff.mp hpaths
      exact ⟨files, surface, rfl, hsurface, hcount, hapart, hholds.mpr hapart, hnodup⟩

/-- Two pages, one of which can be closed. -/
def namesakesJson : Json :=
  .arr [.obj [("name", .str "Page"), ("members", .arr [
      .obj [("kind", .str "method"), ("name", .str "close")]])],
    .obj [("name", .str "Page"), ("members", .arr [])]]

/-- Interfaces of one name go into one file. -/
theorem namesakes_share_file :
    ∃ files surface,
      Generation.files .defaults "java" (.ok Generation.commandName) namesakesJson =
        .ok files ∧
      Generation.surface .defaults "java" (.ok Generation.commandName) namesakesJson =
        .ok surface ∧
      surface.unitCount = 2 ∧ files.length = 1 ∧ ¬Java.HoldsAll .defaults surface files := by
  have hlength : (Generation.files .defaults "java" (.ok Generation.commandName)
      namesakesJson).toOption.map List.length = some 1 := by
    decide +kernel
  have hcount : (Generation.surface .defaults "java" (.ok Generation.commandName)
      namesakesJson).toOption.map Surface.unitCount = some 2 := by
    decide +kernel
  cases hgenerated : Generation.files .defaults "java" (.ok Generation.commandName)
      namesakesJson with
  | error failure => simp [hgenerated, Except.toOption] at hlength
  | ok files =>
      obtain ⟨surface, hsurface, -⟩ := exists_of_bind_ok hgenerated
      rw [hgenerated] at hlength
      rw [hsurface] at hcount
      have hone : files.length = 1 := by simpa [Except.toOption] using hlength
      have htwo : surface.unitCount = 2 := by simpa [Except.toOption] using hcount
      refine ⟨files, surface, rfl, hsurface, htwo, hone, fun hall => ?_⟩
      have hsame := hall.count
      omega

end ApiBindings
