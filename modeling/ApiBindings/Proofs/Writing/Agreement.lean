import ApiBindings.Proofs.Writing.Batch
/-!
# Two ways of writing

A text gets into a file by way of a temporary one, or directly.  Whatever is in the way, both
leave the same tree and end alike, as long as texts can be encoded.  A text that cannot be is
refused before anything is touched if it is for a temporary file; directly it is looked at only
when its file has been opened, which a directory prevents and which empties a file.
-/

namespace ApiBindings
namespace FileTree

variable {root : FileTree} {here mid above steps more : List Text} {place : Place} {path : Path}

theorem follow_append (hsteps : root.follow here steps = .ok mid)
    (hmore : root.follow mid more = .ok above) : root.follow here (steps ++ more) = .ok above := by
  induction steps generalizing here with
  | nil =>
      obtain rfl : here = mid := by simpa [FileTree.follow] using hsteps
      exact hmore
  | cons step rest ih =>
      rw [List.cons_append, follow_cons_ok]
      obtain ⟨hhere, hrest⟩ := follow_cons_ok.mp hsteps
      refine ⟨hhere, ?_⟩
      split at hrest
      next hup => exact (if_pos hup).mpr (ih hrest)
      next hname => exact (if_neg hname).mpr ⟨hrest.1, ih hrest.2⟩

theorem locatePath_of_find? (hdirectory : (root.find? path).any isDirectory = true) :
    ∃ place, root.locatePath path = .ok place ∧ root.node? place = some .directory := by
  unfold find? at hdirectory
  cases hlocate : root.locatePath path with
  | error fault => simp [hlocate] at hdirectory
  | ok place =>
      rw [hlocate] at hdirectory
      refine ⟨place, rfl, node?_eq_directory_iff.mpr ?_⟩
      cases hfound : root.get? place with
      | none => simp [hfound] at hdirectory
      | some tree =>
          cases tree with
          | file text => simp [hfound, isDirectory] at hdirectory
          | directory entries => exact ⟨entries, rfl⟩

end FileTree

namespace Writing

variable {root after mid : FileTree} {path : Path} {text : Text} {place directory : Place}

/-! ## Names and lengths -/

/-- As far as it is spelled, a file can be at a path and a temporary one beside it: the path ends
in a name and keeps below the limits. -/
structure TakesFile (path : Path) : Prop where
  named : isNameless path = false
  nameFits : path.name.byteCount + temporaryBytes ≤ FileTree.nameLimit
  pathFits : path.text.byteCount + temporaryBytes < Path.lengthLimit

theorem TakesFile.name_ne (hpath : TakesFile path) : path.name ≠ [] ∧ path.name ≠ ".." := by
  simpa [isNameless] using hpath.named

theorem TakesFile.fault?_eq (hpath : TakesFile path) :
    path.fault? temporaryBytes = path.fault? 0 := by
  have hlimit := hpath.pathFits
  have hlong : ¬Path.lengthLimit ≤ path.text.byteCount + temporaryBytes := Nat.not_le.mpr hlimit
  have hshort : ¬Path.lengthLimit ≤ path.text.byteCount + 0 := by omega
  unfold Path.fault?
  rw [if_neg hlong, if_neg hshort]

theorem TakesFile.steps_eq (hpath : TakesFile path) :
    path.steps = path.parent.steps ++ [path.name] := by
  have hsteps : path.steps ≠ [] := by
    intro hnone
    exact hpath.name_ne.1 (by simp [Path.name, hnone])
  have hname : path.name = path.steps.getLast hsteps := by
    simp [Path.name, List.getLast?_eq_some_getLast hsteps]
  rw [hname]
  exact (List.dropLast_concat_getLast hsteps).symm

/-- A path leads to its name in the directory that its parent leads to. -/
theorem TakesFile.locatePath (hpath : TakesFile path) (hfault : path.fault? 0 = none)
    (hparent : root.locatePath path.parent = .ok directory)
    (hdirectory : root.node? directory = some .directory) :
    root.locatePath path = .ok (directory ++ [path.name]) := by
  obtain ⟨-, hfollow⟩ := FileTree.locatePath_eq_ok.mp hparent
  have hfits : path.name.byteCount ≤ FileTree.nameLimit :=
    Nat.le_trans (Nat.le_add_right _ _) hpath.nameFits
  have hlast : root.follow directory.reverse [path.name] =
      .ok (directory ++ [path.name]).reverse := by
    rw [FileTree.follow_cons_ok, if_neg hpath.name_ne.2, List.reverse_reverse]
    exact ⟨hdirectory, hfits, by simp [FileTree.follow]⟩
  refine FileTree.locatePath_eq_ok.mpr ⟨hfault, ?_⟩
  rw [hpath.steps_eq]
  exact FileTree.follow_append hfollow hlast

theorem isNameless_join {relative : Path} (hnamed : isNameless relative = false) :
    isNameless (path.join relative) = false := by
  have hsteps : relative.steps ≠ [] := by
    intro hnone
    simp [isNameless, Path.name, hnone] at hnamed
  have hname : (path.join relative).name = relative.name := by
    unfold Path.join Path.name
    split
    next => rfl
    next => rw [List.getLast?_append_of_ne_nil _ hsteps]
  unfold isNameless
  rwa [hname]

/-! ## The directory of a file -/

theorem locatePath_of_tryMakeDirectory (hmade : tryMakeDirectory root path = .ok after) :
    ∃ place, after.locatePath path = .ok place ∧ after.node? place = some .directory := by
  have hgains := gains_of_tryMakeDirectory hmade
  obtain ⟨place, hlocate, -, rfl⟩ := tryMakeDirectory_ok hmade
  have hput : (root.put place .empty).get? place = some .empty :=
    FileTree.get?_put_self (FileTree.hasRoom_of_locatePath hlocate)
  refine ⟨place, hgains.directories.locatePath hlocate, ?_⟩
  exact FileTree.node?_eq_directory_iff.mpr ⟨[], hput⟩

theorem locatePath_of_settle {fault : Fault}
    (hrun : outcome (if true && (root.find? path).any FileTree.isDirectory then pure ()
      else refuse fault path) root = (.ok (), after)) :
    ∃ place, after.locatePath path = .ok place ∧ after.node? place = some .directory := by
  split at hrun
  next hdirectory =>
    obtain ⟨-, rfl⟩ := Prod.ext_iff.mp hrun
    exact FileTree.locatePath_of_find? (by simpa using hdirectory)
  next => simp at hrun

/-- Where the directories of a path could be made, the path leads to one. -/
theorem locatePath_of_makeDirectories {anchor : Anchor} {steps : List Text}
    (hroot : root.node? [] = some .directory)
    (hrun : outcome (makeDirectories true anchor steps) root = (.ok (), after)) :
    ∃ place, after.locatePath ⟨anchor, steps.reverse⟩ = .ok place ∧
      after.node? place = some .directory := by
  cases steps with
  | nil =>
      obtain ⟨-, rfl⟩ : _ ∧ root = after := Prod.ext_iff.mp hrun
      refine ⟨[], FileTree.locatePath_eq_ok.mpr ⟨?_, rfl⟩, hroot⟩
      cases anchor <;> decide
  | cons step above =>
      rw [makeDirectories] at hrun
      dsimp only at hrun
      rw [outcome_get_bind] at hrun
      split at hrun
      next made hmade =>
        obtain ⟨-, rfl⟩ := Prod.ext_iff.mp hrun
        exact locatePath_of_tryMakeDirectory hmade
      next =>
        -- The directories on the way are made first; then there is a second attempt.
        obtain ⟨_, between, -, hrun⟩ := outcome_bind_ok hrun
        rw [outcome_get_bind] at hrun
        split at hrun
        next made hmade =>
          obtain ⟨-, rfl⟩ := Prod.ext_iff.mp hrun
          exact locatePath_of_tryMakeDirectory hmade
        next =>
          rw [outcome_get_bind] at hrun
          exact locatePath_of_settle hrun
      next =>
        rw [outcome_get_bind] at hrun
        exact locatePath_of_settle hrun

theorem locatePath_of_makeParent (hroot : root.node? [] = some .directory)
    (hrun : outcome (makeParent path) root = (.ok (), after)) :
    ∃ place, after.locatePath path.parent = .ok place ∧ after.node? place = some .directory := by
  have hlocated := locatePath_of_makeDirectories hroot hrun
  rwa [List.reverse_reverse] at hlocated

theorem outcome_locate (hlocate : root.locatePath path = .ok place) :
    outcome (locate path) root = (.ok place, root) := by
  unfold locate
  rw [outcome_get_bind, hlocate]
  rfl

theorem outcome_locate_of_fault {fault : Fault} (hfault : path.fault? 0 = some fault) :
    outcome (locate path) root = (.error (.fault fault path), root) := by
  unfold locate
  rw [outcome_get_bind, FileTree.locatePath, hfault]
  rfl

/-! ## The temporary file -/

theorem temporaryName_ne (entries : List (Text × FileTree)) (name : Text) :
    temporaryName entries name ≠ name := by
  intro hsame
  have hlength := congrArg List.length hsame
  simp [temporaryName] at hlength
  omega

theorem outcome_temporaryPlace (hpath : TakesFile path) (hfault : path.fault? 0 = none)
    (hparent : root.locatePath path.parent = .ok directory) :
    ∃ siblings, outcome (temporaryPlace path) root =
      (.ok (directory ++ [temporaryName siblings path.name]), root) := by
  have hfits : ¬FileTree.nameLimit < path.name.byteCount + temporaryBytes :=
    Nat.not_lt.mpr hpath.nameFits
  refine ⟨((root.get? directory).map FileTree.entries).getD [], ?_⟩
  unfold temporaryPlace
  rw [hpath.fault?_eq, hfault]
  dsimp only
  rw [outcome_bind_of_ok (outcome_locate hparent), if_neg hfits]
  rfl

theorem outcome_temporaryPlace_of_fault {fault : Fault} (hpath : TakesFile path)
    (hfault : path.fault? 0 = some fault) :
    outcome (temporaryPlace path) root = (.error (.fault fault path), root) := by
  unfold temporaryPlace
  rw [hpath.fault?_eq, hfault]
  rfl

/-- A temporary file beside it takes the place that a path leads to, unless a directory is there. -/
theorem tryRename_put {temporary : Place} (string : String) (hpath : TakesFile path)
    (hlocate : root.locatePath path = .ok place) (habsent : root.get? temporary = none)
    (hroom : root.HasRoom temporary) (hne : place ≠ temporary) :
    tryRename (root.put temporary (.file string)) temporary path =
      if root.node? place = some .directory then .error .isADirectory
      else .ok (root.put place (.file string)) := by
  have hnode : root.node? temporary = none := by simp [FileTree.node?, habsent]
  have hlocated : (root.put temporary (.file string)).locatePath path = .ok place :=
    (FileTree.directoriesIn_put_file hnode).locatePath hlocate
  have hsame : (root.put temporary (.file string)).node? place = root.node? place := by
    rw [FileTree.node?_put_file hroom (by simp [hnode]), if_neg hne]
  unfold tryRename
  rw [hpath.named, hlocated, ← hsame, FileTree.node?, if_neg Bool.false_ne_true]
  simp only [FileTree.get?_put_self hroom, FileTree.remove_put habsent, bind, Except.bind]
  cases (root.put temporary (.file string)).get? place with
  | none => rfl
  | some tree => cases tree <;> rfl

/-! ## One file -/

/-- How the two ways end where a text cannot be encoded.  By way of a temporary file that is all;
directly, a directory at the path is refused before, and a file there is emptied. -/
inductive Parted {α : Type} (path : Path) :
    Except WriteFailure α × FileTree → Except WriteFailure α × FileTree → Prop where
  | refused {tree : FileTree} {place : Place} (hplace : tree.locatePath path = .ok place)
      (hdirectory : tree.node? place = some .directory) :
      Parted path (.error (.fault .unencodable path), tree)
        (.error (.fault .isADirectory path), tree)
  | emptied {tree : FileTree} {place : Place} (hplace : tree.locatePath path = .ok place)
      (hfree : tree.node? place ≠ some .directory) :
      Parted path (.error (.fault .unencodable path), tree)
        (.error (.fault .unencodable path), tree.put place (.file ""))

/-- How a text gets into a file by way of a temporary one, once there is a directory for both. -/
theorem outcome_replaceFile (hpath : TakesFile path)
    (hparent : outcome (makeParent path) root = (.ok (), mid))
    (hfault : path.fault? 0 = none) (hdirectory : mid.locatePath path.parent = .ok directory)
    (hmade : mid.node? directory = some .directory) :
    outcome (replaceFile path text) root =
      match text.toString? with
      | none => (.error (.fault .unencodable path), mid)
      | some string =>
        if mid.node? (directory ++ [path.name]) = some .directory then
          (.error (.fault .isADirectory path), mid)
        else (.ok (), mid.put (directory ++ [path.name]) (.file string)) := by
  obtain ⟨siblings, htemporary⟩ := outcome_temporaryPlace hpath hfault hdirectory
  have habsent := (temporaryPlace_ok htemporary).1
  unfold replaceFile
  rw [outcome_bind_of_ok hparent, outcome_bind_of_ok htemporary, outcome_replaceBy habsent]
  cases text.toString? with
  | none => rfl
  | some string =>
      have hroom : mid.HasRoom (directory ++ [temporaryName siblings path.name]) := by
        intro _
        rwa [List.dropLast_concat]
      have hne : directory ++ [path.name] ≠ directory ++ [temporaryName siblings path.name] := by
        simpa using (temporaryName_ne siblings path.name).symm
      have hmoved := tryRename_put string hpath
        (hpath.locatePath hfault hdirectory hmade) habsent hroom hne
      simp only [hmoved]
      by_cases hoccupied : mid.node? (directory ++ [path.name]) = some .directory
      · rw [if_pos hoccupied, if_pos hoccupied]
      · rw [if_neg hoccupied, if_neg hoccupied]

/-- How a text gets into a file directly, once there is a directory for it. -/
theorem outcome_overwriteFile (hpath : TakesFile path)
    (hparent : outcome (makeParent path) root = (.ok (), mid))
    (hfault : path.fault? 0 = none) (hdirectory : mid.locatePath path.parent = .ok directory)
    (hmade : mid.node? directory = some .directory) :
    outcome (overwriteFile path text) root =
      if mid.node? (directory ++ [path.name]) = some .directory then
        (.error (.fault .isADirectory path), mid)
      else match text.toString? with
        | none =>
          (.error (.fault .unencodable path), mid.put (directory ++ [path.name]) (.file ""))
        | some string => (.ok (), mid.put (directory ++ [path.name]) (.file string)) := by
  have hlocate := outcome_locate (hpath.locatePath hfault hdirectory hmade)
  have hopened : outcome (do
      modify (·.put (directory ++ [path.name]) (.file ""))
      let text ← encode path text
      modify (·.put (directory ++ [path.name]) (.file text))) mid =
      match text.toString? with
      | none =>
        (.error (.fault .unencodable path), mid.put (directory ++ [path.name]) (.file ""))
      | some string => (.ok (), mid.put (directory ++ [path.name]) (.file string)) := by
    rw [outcome_modify_bind]
    cases hstring : text.toString? with
    | none => rw [outcome_bind_of_error (encode_of_not_toString? hstring)]
    | some string =>
        rw [outcome_bind_of_ok (encode_of_toString? hstring), outcome_modify, FileTree.put_put]
  unfold overwriteFile
  rw [outcome_bind_of_ok hparent, outcome_bind_of_ok hlocate, outcome_get_bind, FileTree.node?]
  cases mid.get? (directory ++ [path.name]) with
  | none => exact hopened
  | some tree =>
      cases tree with
      | file old => exact hopened
      | directory entries => rfl

/-- Both ways leave one file alike, unless its text cannot be encoded. -/
theorem writeFile_agree (hroot : root.node? [] = some .directory) (hpath : TakesFile path)
    (text : Text) :
    outcome (writeFile true path text) root = outcome (writeFile false path text) root ∨
      text.toString? = none ∧
        Parted path (outcome (writeFile true path text) root)
          (outcome (writeFile false path text) root) := by
  change outcome (replaceFile path text) root = outcome (overwriteFile path text) root ∨ _ ∧
    Parted path (outcome (replaceFile path text) root) (outcome (overwriteFile path text) root)
  rcases hparent : outcome (makeParent path) root with ⟨failure | _, mid⟩
  · left
    unfold replaceFile overwriteFile
    rw [outcome_bind_of_error hparent, outcome_bind_of_error hparent]
  cases hfault : path.fault? 0 with
  | some fault =>
      left
      unfold replaceFile overwriteFile
      rw [outcome_bind_of_ok hparent, outcome_bind_of_ok hparent,
        outcome_bind_of_error (outcome_temporaryPlace_of_fault hpath hfault),
        outcome_bind_of_error (outcome_locate_of_fault hfault)]
  | none =>
      obtain ⟨directory, hdirectory, hmade⟩ := locatePath_of_makeParent hroot hparent
      have hlocated := hpath.locatePath hfault hdirectory hmade
      rw [outcome_replaceFile hpath hparent hfault hdirectory hmade,
        outcome_overwriteFile hpath hparent hfault hdirectory hmade]
      cases hstring : text.toString? with
      | some string => exact .inl rfl
      | none =>
          refine .inr ⟨rfl, ?_⟩
          by_cases hoccupied : mid.node? (directory ++ [path.name]) = some .directory
          · rw [if_pos hoccupied]
            exact .refused hlocated hoccupied
          · rw [if_neg hoccupied]
            exact .emptied hlocated hoccupied

/-! ## A batch -/

theorem Parted.bind {α β : Type} {first second : Writing α} {next other : α → Writing β}
    (hparted : Parted path (outcome first root) (outcome second root)) :
    Parted path (outcome (first >>= next) root) (outcome (second >>= other) root) := by
  generalize hfirst : outcome first root = ended at hparted
  generalize hsecond : outcome second root = ended' at hparted
  cases hparted with
  | refused hplace hdirectory =>
      rw [outcome_bind_of_error hfirst, outcome_bind_of_error hsecond]
      exact .refused hplace hdirectory
  | emptied hplace hfree =>
      rw [outcome_bind_of_error hfirst, outcome_bind_of_error hsecond]
      exact .emptied hplace hfree

theorem writeEach_agree {files : List (Path × Text)} (hroot : root.node? [] = some .directory)
    (hpaths : ∀ file ∈ files, TakesFile file.1) :
    outcome (writeEach true files) root = outcome (writeEach false files) root ∨
      ∃ file ∈ files, file.2.toString? = none ∧
        Parted file.1 (outcome (writeEach true files) root)
          (outcome (writeEach false files) root) := by
  induction files generalizing root with
  | nil => exact .inl rfl
  | cons file rest ih =>
      obtain ⟨path, text⟩ := file
      obtain ⟨hpath, hrest⟩ := List.forall_mem_cons.mp hpaths
      rw [writeEach_cons, writeEach_cons]
      obtain hsame | ⟨hstring, hparted⟩ := writeFile_agree hroot hpath text
      · rcases hwrite : outcome (writeFile true path text) root with ⟨failure | _, mid⟩
        · rw [outcome_bind_of_error hwrite, outcome_bind_of_error (hsame.symm.trans hwrite)]
          exact .inl rfl
        · rw [outcome_bind_of_ok hwrite, outcome_bind_of_ok (hsame.symm.trans hwrite)]
          obtain ⟨_, _, -, -, hwrote⟩ := writeFile_ok hwrite
          obtain hsame | ⟨file, hfile, hparted⟩ := ih (hwrote.directories _ hroot) hrest
          · exact .inl hsame
          · exact .inr ⟨file, List.mem_cons_of_mem _ hfile, hparted⟩
      · exact .inr ⟨(path, text), List.mem_cons_self, hstring, hparted.bind⟩

/-- Whatever is in the way of a batch of files, and whether it may replace files or not, both ways
of writing it end alike and leave the same tree, unless they come to a text that cannot be encoded:
there the direct way refuses a directory before, or leaves an empty file. -/
theorem writeBatch_agree {directory : Path} {files : List Java.File} {language : Text}
    {mode : OutputMode} (hroot : root.isDirectory = true)
    (hnamed : ∀ file ∈ files, isNameless (.ofText file.path) = false)
    (hfits : ∀ target ∈ targets directory files,
      target.1.name.byteCount + temporaryBytes ≤ FileTree.nameLimit ∧
      target.1.text.byteCount + temporaryBytes < Path.lengthLimit) :
    outcome (writeBatch directory files language mode true) root =
        outcome (writeBatch directory files language mode false) root ∨
      ∃ target ∈ targets directory files, target.2.toString? = none ∧
        Parted target.1 (outcome (writeBatch directory files language mode true) root)
          (outcome (writeBatch directory files language mode false) root) := by
  have hpaths : ∀ target ∈ targets directory files, TakesFile target.1 := by
    intro target htarget
    obtain ⟨file, hfile, rfl⟩ := List.mem_map.mp htarget
    obtain ⟨hname, hpath⟩ := hfits _ htarget
    exact ⟨isNameless_join (hnamed file hfile), hname, hpath⟩
  have hdirectory : root.node? [] = some .directory := by
    cases root with
    | file text => cases hroot
    | directory entries => rfl
  obtain ⟨failure, hgiven⟩ | ⟨-, hwrite⟩ := outcome_writeBatch directory files language mode root
  · exact .inl ((hgiven true).trans (hgiven false).symm)
  rw [hwrite, hwrite]
  obtain hsame | ⟨target, htarget, hstring, hparted⟩ := writeEach_agree hdirectory hpaths
  · rcases hended : outcome (writeEach true (targets directory files)) root with ⟨failure | _, mid⟩
    · rw [outcome_bind_of_error hended, outcome_bind_of_error (hsame.symm.trans hended)]
      exact .inl rfl
    · rw [outcome_bind_of_ok hended, outcome_bind_of_ok (hsame.symm.trans hended)]
      exact .inl rfl
  · exact .inr ⟨target, htarget, hstring, hparted.bind⟩

/-- Some notes, and more of them below the first file. -/
def cloggingBatch : List Java.File :=
  [⟨"notes", "some"⟩, ⟨"notes/more", "others"⟩]

/-- The second file is refused, however it is written. -/
theorem writeBatch_agree_clogging :
    outcome (writeBatch (.ofText "out") cloggingBatch "text" .errorIfExists true) .empty =
      outcome (writeBatch (.ofText "out") cloggingBatch "text" .errorIfExists false) .empty ∧
    (outcome (writeBatch (.ofText "out") cloggingBatch "text" .errorIfExists true) .empty).1.isOk =
      false := by
  have hencodable : ∀ target ∈ targets (.ofText "out") cloggingBatch,
      target.2.toString? ≠ none := by
    decide +kernel
  refine ⟨(writeBatch_agree rfl (by decide +kernel) (by decide +kernel)).resolve_right ?_,
    by decide +kernel⟩
  rintro ⟨target, htarget, hstring, -⟩
  exact hencodable target htarget hstring

/-- A directory with notes in it. -/
def notesTree : FileTree :=
  .directory [("notes", .file "old")]

/-- Notes that are half of a surrogate pair. -/
def brokenBatch : List Java.File :=
  [⟨"notes", [.ofSurrogate 0xD800]⟩]

/-- Only the direct way loses the old notes. -/
theorem direct_write_empties :
    (outcome (writeBatch (.ofText "") brokenBatch "text" .force true) notesTree).2.text?
        ["notes"] = some "old" ∧
      (outcome (writeBatch (.ofText "") brokenBatch "text" .force false) notesTree).2.text?
        ["notes"] = some "" := by
  decide +kernel

end Writing
end ApiBindings
