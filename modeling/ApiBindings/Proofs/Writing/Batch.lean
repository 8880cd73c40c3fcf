import ApiBindings.Generation
import ApiBindings.Proofs.Writing.Files
import ApiBindings.Proofs.Surface.Construction
/-!
# Writing a batch

Checking a batch and looking its targets up changes nothing.  Then the files are
written one after the other, and what an earlier one has left stays when the
operating system refuses a later one.  So a failed run leaves the tree as it was
unless it fails with such a fault; and then exactly the files before the refused
one are written.
-/

namespace ApiBindings
namespace FileTree

variable {tree : FileTree} {texts : Place → Option String} {path : Path} {text : Text}
  {place : Place} {files : List (Path × Text)}

/-- Texts by place, with those of some files laid over them where their paths
lead in a tree. -/
def overlay (tree : FileTree) (texts : Place → Option String) :
    List (Path × Text) → Place → Option String
  | [] => texts
  | (path, text) :: rest =>
    match tree.locatePath path with
    | .ok place => tree.overlay (Function.update texts place text.toString?) rest
    | .error _ => tree.overlay texts rest

theorem overlay_cons_of_locatePath (hlocate : tree.locatePath path = .ok place) :
    tree.overlay texts ((path, text) :: files) =
      tree.overlay (Function.update texts place text.toString?) files := by
  rw [overlay, hlocate]

theorem overlay_of_not_located (hplace : ∀ file ∈ files, tree.locatePath file.1 ≠ .ok place) :
    tree.overlay texts files place = texts place := by
  induction files generalizing texts with
  | nil => rfl
  | cons file rest ih =>
      obtain ⟨path, text⟩ := file
      obtain ⟨hfirst, hrest⟩ := List.forall_mem_cons.mp hplace
      cases hfound : tree.locatePath path with
      | error fault =>
          rw [overlay, hfound]
          exact ih hrest
      | ok found =>
          have hne : place ≠ found := by
            rintro rfl
            exact hfirst hfound
          rw [overlay_cons_of_locatePath hfound, ih hrest, Function.update_of_ne hne]

end FileTree

namespace Writing

variable {root after : FileTree} {files : List (Path × Text)} {atomic : Bool}

/-- The files of a batch below a directory. -/
def targets (directory : Path) (files : List Java.File) : List (Path × Text) :=
  files.map fun file => (directory.join (.ofText file.path), file.text)

/-- The writing of a batch stopped at one of its files: those before it are
written, and all others are as they were.  Only a file that is written directly
can be left empty, if its text cannot be encoded. -/
def Stopped (atomic : Bool) (files : List (Path × Text)) (before after : FileTree) : Prop :=
  ∃ done refused rest, files = done ++ refused :: rest ∧
    (after.text? = after.overlay before.text? done ∨
      atomic = false ∧ refused.2.toString? = none ∧
        after.text? = after.overlay before.text? (done ++ [(refused.1, [])]))

/-! ## Before the first file is written -/

theorem outcome_check (language : Text) (path : Path) (text : Text) :
    (outcome (check language path text) root).2 = root := by
  unfold check
  split
  · split <;> rfl
  · rfl

theorem checkAll_cases {language : Text} {result : Except WriteFailure Unit}
    (hrun : outcome (checkAll language files) root = (result, after)) : after = root := by
  induction files with
  | nil => exact (Prod.ext_iff.mp hrun).2.symm
  | cons file rest ih =>
      obtain ⟨path, text⟩ := file
      have hcheck : (outcome (check language path text) root).2 = root := outcome_check ..
      rw [checkAll] at hrun
      obtain ⟨failure, hfirst, -⟩ | ⟨_, mid, hfirst, hrest⟩ := outcome_bind_cases hrun
      · rw [hfirst] at hcheck
        exact hcheck
      · rw [hfirst] at hcheck
        obtain rfl : mid = root := hcheck
        exact ih hrest

theorem takenAmong_error {paths : List Path} {failure : WriteFailure}
    (hrun : outcome (takenAmong paths) root = (.error failure, after)) : after = root := by
  induction paths generalizing after with
  | nil => simp [takenAmong] at hrun
  | cons path rest ih =>
      rw [takenAmong, outcome_get_bind] at hrun
      obtain hasked | ⟨isTaken, _, hasked, hrest⟩ := outcome_bind_error hrun
      · exact (outcome_ofExcept_error hasked).2
      obtain ⟨-, rfl⟩ := outcome_ofExcept_ok hasked
      obtain hothers | ⟨others, _, hothers, hdone⟩ := outcome_bind_error hrest
      · exact ih hothers
      · simp at hdone

theorem takenAmong_ok {paths existing : List Path}
    (hrun : outcome (takenAmong paths) root = (.ok existing, after)) :
    after = root ∧ ∀ path ∈ paths, path ∈ existing ∨ root.hasPath path = .ok false := by
  induction paths generalizing existing after with
  | nil =>
      obtain ⟨rfl, rfl⟩ := by simpa [takenAmong] using hrun
      exact ⟨rfl, by simp⟩
  | cons path rest ih =>
      rw [takenAmong, outcome_get_bind] at hrun
      obtain ⟨isTaken, _, hasked, hrest⟩ := outcome_bind_ok hrun
      obtain ⟨hhas, rfl⟩ := outcome_ofExcept_ok hasked
      obtain ⟨others, _, hothers, hdone⟩ := outcome_bind_ok hrest
      obtain ⟨rfl, hall⟩ := ih hothers
      obtain ⟨hexisting, rfl⟩ : (if isTaken then path :: others else others) = existing ∧ _ = after := by
        simpa using hdone
      subst hexisting
      refine ⟨rfl, List.forall_mem_cons.mpr ⟨?_, fun other hother => ?_⟩⟩
      · cases isTaken with
        | true => exact .inl (by simp)
        | false => exact .inr hhas
      · refine (hall other hother).imp_left fun hmem => ?_
        cases isTaken with
        | true => exact List.mem_cons_of_mem path hmem
        | false => exact hmem

/-! ## One file after the other -/

def writeFile (atomic : Bool) (path : Path) (text : Text) : Writing Unit :=
  if atomic then replaceFile path text else overwriteFile path text

theorem writeFile_ok {path : Path} {text : Text}
    (hrun : outcome (writeFile atomic path text) root = (.ok (), after)) :
    ∃ place string, text.toString? = some string ∧ after.locatePath path = .ok place ∧
      root.Wrote place string after := by
  cases atomic with
  | true => exact replaceFile_ok hrun
  | false => exact overwriteFile_ok hrun

theorem writeFile_error {path : Path} {text : Text} {failure : WriteFailure}
    (hrun : outcome (writeFile atomic path text) root = (.error failure, after)) :
    failure.IsFault ∧ (root.Gains after ∨ atomic = false ∧ text.toString? = none ∧
      ∃ place, after.locatePath path = .ok place ∧ root.Wrote place "" after) := by
  cases atomic with
  | true =>
      obtain ⟨hfault, hgains⟩ := replaceFile_error hrun
      exact ⟨hfault, .inl hgains.gains⟩
  | false =>
      obtain ⟨hfault, hleft⟩ := overwriteFile_error hrun
      exact ⟨hfault, hleft.imp_right fun hemptied => ⟨rfl, hemptied⟩⟩

theorem writeEach_cons (path : Path) (text : Text) :
    writeEach atomic ((path, text) :: files) =
      writeFile atomic path text >>= fun _ => writeEach atomic files := by
  rw [writeEach, writeFile]
  cases atomic <;> rfl

theorem directoriesIn_of_writeEach {result : Except WriteFailure Unit}
    (hrun : outcome (writeEach atomic files) root = (result, after)) : root.DirectoriesIn after := by
  induction files generalizing root with
  | nil =>
      obtain ⟨-, rfl⟩ := Prod.ext_iff.mp hrun
      exact .refl _
  | cons file rest ih =>
      obtain ⟨path, text⟩ := file
      rw [writeEach_cons] at hrun
      obtain ⟨failure, hwrite, -⟩ | ⟨_, mid, hwrite, hrest⟩ := outcome_bind_cases hrun
      · obtain ⟨-, hgains | ⟨-, -, place, -, hwrote⟩⟩ := writeFile_error hwrite
        · exact hgains.directories
        · exact hwrote.directories
      · obtain ⟨place, string, -, -, hwrote⟩ := writeFile_ok hwrite
        exact hwrote.directories.trans (ih hrest)

theorem overlay_of_writeFile {path : Path} {text : Text} {mid : FileTree}
    (hwrite : outcome (writeFile atomic path text) root = (.ok (), mid))
    (hdirectories : mid.DirectoriesIn after) (done : List (Path × Text)) :
    after.overlay mid.text? done = after.overlay root.text? ((path, text) :: done) := by
  obtain ⟨place, string, hstring, hlocate, hwrote⟩ := writeFile_ok hwrite
  -- The path leads to the same place also when others have been written after it.
  have hlater : after.locatePath path = .ok place := hdirectories.locatePath hlocate
  rw [FileTree.overlay_cons_of_locatePath hlater, hwrote.texts, hstring]

theorem writeEach_ok (hrun : outcome (writeEach atomic files) root = (.ok (), after)) :
    after.text? = after.overlay root.text? files := by
  induction files generalizing root with
  | nil =>
      obtain ⟨-, rfl⟩ := Prod.ext_iff.mp hrun
      rfl
  | cons file rest ih =>
      obtain ⟨path, text⟩ := file
      rw [writeEach_cons] at hrun
      obtain ⟨_, mid, hwrite, hrest⟩ := outcome_bind_ok hrun
      have hlater : after.text? = after.overlay mid.text? rest := ih hrest
      rw [hlater, overlay_of_writeFile hwrite (directoriesIn_of_writeEach hrest)]

theorem writeEach_error {failure : WriteFailure}
    (hrun : outcome (writeEach atomic files) root = (.error failure, after)) :
    failure.IsFault ∧ Stopped atomic files root after := by
  induction files generalizing root with
  | nil => simp [writeEach] at hrun
  | cons file rest ih =>
      obtain ⟨path, text⟩ := file
      rw [writeEach_cons] at hrun
      obtain hrefused | ⟨_, mid, hwrite, hrest⟩ := outcome_bind_error hrun
      · obtain ⟨hfault, hgains | ⟨hplain, hstring, place, hlocate, hwrote⟩⟩ := writeFile_error hrefused
        · exact ⟨hfault, [], (path, text), rest, rfl, .inl hgains.texts⟩
        · have hempty : Text.toString? [] = some "" := rfl
          refine ⟨hfault, [], (path, text), rest, rfl, .inr ⟨hplain, hstring, ?_⟩⟩
          rw [List.nil_append, FileTree.overlay_cons_of_locatePath hlocate, hwrote.texts, hempty]
          rfl
      · have hdirectories : mid.DirectoriesIn after := directoriesIn_of_writeEach hrest
        obtain ⟨hfault, done, refused, others, rfl, hleft⟩ := ih hrest
        refine ⟨hfault, (path, text) :: done, refused, others, rfl, ?_⟩
        rw [List.cons_append, ← overlay_of_writeFile hwrite hdirectories,
          ← overlay_of_writeFile hwrite hdirectories]
        exact hleft

theorem writeEach_keeps {result : Except WriteFailure Unit} {place : Place}
    (hrun : outcome (writeEach atomic files) root = (result, after))
    (hplace : ∀ file ∈ files, after.locatePath file.1 ≠ .ok place) :
    after.text? place = root.text? place := by
  cases result with
  | ok _ =>
      rw [writeEach_ok hrun]
      exact FileTree.overlay_of_not_located hplace
  | error failure =>
      obtain ⟨-, done, refused, rest, rfl, hleft⟩ := writeEach_error hrun
      have hdone : ∀ file ∈ done, after.locatePath file.1 ≠ .ok place := fun file hfile =>
        hplace file (List.mem_append_left _ hfile)
      have hrefused : after.locatePath refused.1 ≠ .ok place :=
        hplace refused (List.mem_append_right _ List.mem_cons_self)
      obtain hwritten | ⟨-, -, hwritten⟩ := hleft
      · rw [hwritten]
        exact FileTree.overlay_of_not_located hdone
      · rw [hwritten]
        refine FileTree.overlay_of_not_located fun file hfile => ?_
        obtain hfile | hfile := List.mem_append.mp hfile
        · exact hdone file hfile
        · obtain rfl := List.mem_singleton.mp hfile
          exact hrefused

/-! ## A whole batch -/

/-- Both ways of writing begin alike: a batch is either given up before anything is written, or
written file by file; and if existing files are protected, then only where no path led anywhere. -/
theorem outcome_writeBatch (directory : Path) (batch : List Java.File) (language : Text)
    (mode : OutputMode) (root : FileTree) :
    (∃ failure, ∀ atomic, outcome (writeBatch directory batch language mode atomic) root =
      (.error failure, root)) ∨
      (protects mode = true →
        ∀ target ∈ targets directory batch, root.hasPath target.1 = .ok false) ∧
      ∀ atomic, outcome (writeBatch directory batch language mode atomic) root =
        outcome (do
          writeEach atomic (targets directory batch)
          pure ((targets directory batch).map (·.1))) root := by
  have hsteps : ∀ atomic, outcome (writeBatch directory batch language mode atomic) root =
      outcome (do
        checkAll language (targets directory batch)
        if protects mode then
          let existing ← takenAmong ((targets directory batch).map (·.1))
          if !existing.isEmpty then throw (.taken (.targets existing))
        writeEach atomic (targets directory batch)
        pure ((targets directory batch).map (·.1))) root := fun _ => rfl
  simp only [hsteps]
  rcases hcheck : outcome (checkAll language (targets directory batch)) root with
    ⟨failure | _, mid⟩
  · obtain rfl : mid = root := checkAll_cases hcheck
    exact .inl ⟨failure, fun atomic => outcome_bind_of_error hcheck⟩
  obtain rfl : mid = root := checkAll_cases hcheck
  simp only [outcome_bind_of_ok hcheck]
  by_cases hprotects : protects mode = true
  · simp only [if_pos hprotects]
    rcases hlook : outcome (takenAmong ((targets directory batch).map (·.1))) mid with
      ⟨failure | existing, found⟩
    · obtain rfl : found = mid := takenAmong_error hlook
      exact .inl ⟨failure, fun atomic => outcome_bind_of_error hlook⟩
    obtain ⟨rfl, hfree⟩ := takenAmong_ok hlook
    simp only [outcome_bind_of_ok hlook]
    cases existing with
    | nil =>
        refine .inr ⟨fun _ target htarget => ?_, fun _ => rfl⟩
        exact (hfree _ (List.mem_map_of_mem htarget)).resolve_left List.not_mem_nil
    | cons path others => exact .inl ⟨_, fun _ => rfl⟩
  · refine .inr ⟨fun hmode => absurd hmode hprotects, fun atomic => ?_⟩
    rw [if_neg hprotects]

theorem writeBatch_cases {directory : Path} {batch : List Java.File} {language : Text}
    {mode : OutputMode} {result : Except WriteFailure (List Path)}
    (hrun : outcome (writeBatch directory batch language mode atomic) root = (result, after)) :
    (after = root ∧ ∃ failure, result = .error failure) ∨
      (protects mode = true →
        ∀ target ∈ targets directory batch, root.hasPath target.1 = .ok false) ∧
      outcome (do
        writeEach atomic (targets directory batch)
        pure ((targets directory batch).map (·.1))) root = (result, after) := by
  obtain ⟨failure, hgiven⟩ | ⟨hfree, hwrite⟩ :=
    outcome_writeBatch directory batch language mode root
  · rw [hgiven] at hrun
    obtain ⟨rfl, rfl⟩ := Prod.ext_iff.mp hrun
    exact .inl ⟨rfl, failure, rfl⟩
  · exact .inr ⟨hfree, (hwrite atomic).symm.trans hrun⟩

theorem writeBatch_error {directory : Path} {batch : List Java.File} {language : Text}
    {mode : OutputMode} {failure : WriteFailure}
    (hrun : outcome (writeBatch directory batch language mode atomic) root = (.error failure, after)) :
    after = root ∨ failure.IsFault ∧ Stopped atomic (targets directory batch) root after := by
  obtain ⟨hsame, -⟩ | ⟨-, hwrite⟩ := writeBatch_cases hrun
  · exact .inl hsame
  · obtain hrefused | ⟨_, mid, -, hdone⟩ := outcome_bind_error hwrite
    · exact .inr (writeEach_error hrefused)
    · simp at hdone

end Writing

namespace Generation

open Writing

/-- A run that fails leaves the tree as it was, unless the operating system
refuses something while the files are written. -/
theorem write_error {settings : Settings} {language : Text} {commandLine : Invocation}
    {schema : Json} {directory : Path} {root after : FileTree} {failure : WriteFailure}
    (hrun : outcome (write settings language commandLine schema directory) root =
      (.error failure, after)) :
    after = root ∨ failure.IsFault ∧ ∃ batch mode atomic,
      files settings language commandLine schema = .ok batch ∧
      settings.output = some (.options mode atomic) ∧
      Stopped atomic.isTruthy (targets directory batch) root after := by
  unfold write at hrun
  split at hrun
  next =>
    obtain ⟨-, rfl⟩ := Prod.ext_iff.mp hrun
    exact .inl rfl
  next batch hbatch =>
    split at hrun
    next mode atomic houtput =>
      obtain hsame | ⟨hfault, hstopped⟩ := writeBatch_error hrun
      · exact .inl hsame
      · exact .inr ⟨hfault, batch, mode, atomic, hbatch, houtput, hstopped⟩
    next =>
      obtain ⟨-, rfl⟩ := Prod.ext_iff.mp hrun
      exact .inl rfl

/-- A directory where the file `options` is in the way of a directory. -/
def cloggedTree : FileTree :=
  .directory [("out", .directory [("options", .file "taken")])]

/-- The run that writes a page with a size below the directory `out`. -/
def sizeRun : Writing (List Path) :=
  write .defaults "java" (.ok commandName) (pageJson [sizeMethodJson]) (.ofText "/out")

/-- The page is written before the file that is in the way stops the class of the
size. -/
theorem sizeRun_stops : (outcome sizeRun cloggedTree).1.isOk = false ∧
    (outcome sizeRun cloggedTree).2.text? ["out", "Page.java"] ≠
      cloggedTree.text? ["out", "Page.java"] := by
  decide +kernel

theorem exists_error_of_sizeRun : ∃ failure after, outcome sizeRun cloggedTree =
    (.error failure, after) := by
  have hfails := sizeRun_stops.1
  generalize outcome sizeRun cloggedTree = ended at hfails ⊢
  obtain ⟨failure | paths, after⟩ := ended
  · exact ⟨failure, after, rfl⟩
  · simp [Except.isOk, Except.toBool] at hfails

theorem write_error_clogged :
    ∃ failure after, outcome sizeRun cloggedTree = (.error failure, after) ∧
      (after = cloggedTree ∨ failure.IsFault ∧ ∃ batch mode atomic,
        files .defaults "java" (.ok commandName) (pageJson [sizeMethodJson]) = .ok batch ∧
        Settings.defaults.output = some (.options mode atomic) ∧
        Stopped atomic.isTruthy (targets (.ofText "/out") batch) cloggedTree after) := by
  obtain ⟨failure, after, hrun⟩ := exists_error_of_sizeRun
  exact ⟨failure, after, hrun, write_error hrun⟩

/-- So a run that fails need not leave the files as they were. -/
theorem sizeRun_leaves_page :
    ∃ failure after, outcome sizeRun cloggedTree = (.error failure, after) ∧
      ∃ place, after.text? place ≠ cloggedTree.text? place := by
  obtain ⟨failure, after, hrun⟩ := exists_error_of_sizeRun
  have hleaves := sizeRun_stops.2
  rw [hrun] at hleaves
  exact ⟨failure, after, hrun, _, hleaves⟩

end Generation
end ApiBindings
