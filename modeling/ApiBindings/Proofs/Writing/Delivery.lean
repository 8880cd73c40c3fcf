import ApiBindings.Proofs.Writing.Agreement
/-!
# What a write delivers

A single write is all or nothing: either the text is in the file that the path
leads to and all other files are as before, or all files are as before.  A batch
that was written has each text in the file of its own path and leaves all other
files alone.  Whatever is new besides is a directory on the way of a path.
-/

namespace ApiBindings
namespace FileTree

variable {before mid after tree root : FileTree} {texts : Place → Option String} {path : Path}
  {paths others : List Path} {place : Place} {text : Text} {string : String}
  {files : List (Path × Text)}

/-- Whatever is in a tree stays, and new directories come only where nothing was, on the way of
some paths. -/
structure OpensWays (paths : List Path) (before after : FileTree) : Prop where
  stays : ∀ place, before.node? place ≠ none → after.node? place ≠ none
  kept : before.DirectoriesIn after
  made : ∀ place, after.node? place = some .directory → before.node? place ≠ some .directory →
    before.node? place = none ∧ ∃ path ∈ paths, after.Passes path.parent.steps place

theorem OpensWays.refl (root : FileTree) : root.OpensWays paths root where
  stays := fun _ hthere => hthere
  kept := .refl root
  made := fun _ hdirectory hnone => absurd hdirectory hnone

theorem OpensWays.trans (hfirst : before.OpensWays paths mid) (hsecond : mid.OpensWays others after) :
    before.OpensWays (paths ++ others) after where
  stays := fun place hthere => hsecond.stays place (hfirst.stays place hthere)
  kept := hfirst.kept.trans hsecond.kept
  made := by
    intro place hdirectory hnew
    by_cases hmid : mid.node? place = some .directory
    · obtain ⟨hnone, path, hpath, hpasses⟩ := hfirst.made place hmid hnew
      exact ⟨hnone, path, List.mem_append_left _ hpath,
        hpasses.mono (List.prefix_refl _) hsecond.kept⟩
    · obtain ⟨hnone, path, hpath, hpasses⟩ := hsecond.made place hdirectory hmid
      refine ⟨?_, path, List.mem_append_right _ hpath, hpasses⟩
      by_contra hthere
      exact hfirst.stays place hthere hnone

theorem GainsOn.opensWays (hgains : GainsOn path.parent.steps before after) :
    before.OpensWays [path] after where
  stays := by
    intro place hthere
    obtain hsame | ⟨hnone, -, -⟩ := hgains place
    · rwa [hsame]
    · exact absurd hnone hthere
  kept := hgains.gains.directories
  made := by
    intro place hdirectory hnew
    obtain hsame | ⟨hnone, -, hpasses⟩ := hgains place
    · exact absurd (hsame.symm.trans hdirectory) hnew
    · exact ⟨hnone, path, List.mem_singleton_self path, hpasses⟩

theorem Puts.opensWays (hputs : before.Puts path string after) : before.OpensWays [] after := by
  obtain ⟨place, hlocate, hfree, rfl⟩ := hputs
  have hroom : before.HasRoom place := hasRoom_of_locatePath hlocate
  constructor
  · intro other hthere
    rw [node?_put_file hroom hfree]
    split
    · simp
    · exact hthere
  · exact (wrote_put_file hroom hfree).directories
  · intro other hdirectory hnew
    rw [node?_put_file hroom hfree] at hdirectory
    split at hdirectory
    · simp at hdirectory
    · exact absurd hdirectory hnew

/-- Where paths lead to different places, each has its own text. -/
theorem overlay_of_located
    (hdistinct : files.Pairwise fun first second =>
      ∀ place, tree.locatePath first.1 = .ok place → tree.locatePath second.1 ≠ .ok place)
    (hfile : (path, text) ∈ files) (hlocate : tree.locatePath path = .ok place) :
    tree.overlay texts files place = text.toString? := by
  induction files generalizing texts with
  | nil => simp at hfile
  | cons file rest ih =>
      obtain ⟨name, other⟩ := file
      obtain ⟨hfirst, hrest⟩ := List.pairwise_cons.mp hdistinct
      obtain hsame | hfile := List.mem_cons.mp hfile
      · obtain ⟨rfl, rfl⟩ := Prod.ext_iff.mp hsame
        rw [overlay_cons_of_locatePath hlocate,
          overlay_of_not_located fun other hother => hfirst other hother place hlocate,
          Function.update_self]
      · rw [overlay]
        cases tree.locatePath name <;> exact ih hrest hfile

end FileTree

namespace Writing

variable {root after : FileTree} {path : Path} {text : Text} {files : List (Path × Text)}
  {atomic : Bool}

/-! ## One file -/

/-- How the writing of one text may end: the text is in the file that the path leads to, and all
other files are as before; or it has failed, and all files are as before. -/
inductive WrittenOrKept (path : Path) (text : Text) (before : FileTree) :
    Except WriteFailure Unit × FileTree → Prop where
  | written {place : Place} {string : String} {after : FileTree}
      (hstring : text.toString? = some string) (hplace : after.locatePath path = .ok place)
      (htexts : after.text? = Function.update before.text? place (some string))
      (hways : before.OpensWays [path] after) :
      WrittenOrKept path text before (.ok (), after)
  | kept {failure : WriteFailure} {after : FileTree} (htexts : after.text? = before.text?)
      (hways : before.OpensWays [path] after) :
      WrittenOrKept path text before (.error failure, after)

theorem replaceFile_writtenOrKept (path : Path) (text : Text) (root : FileTree) :
    WrittenOrKept path text root (outcome (replaceFile path text) root) := by
  rcases hrun : outcome (replaceFile path text) root with ⟨failure | _, after⟩
  · obtain ⟨-, hgains⟩ := replaceFile_error hrun
    exact .kept hgains.gains.texts hgains.opensWays
  · obtain ⟨mid, string, hparent, hstring, hputs⟩ := replaceFile_puts hrun
    obtain ⟨place, hplace, hwrote⟩ := hputs.wrote
    have hways := (makeParent_gainsOn hparent).opensWays.trans hputs.opensWays
    exact .written hstring hplace (hwrote.of_gains (makeParent_ok hparent)).texts hways

theorem WrittenOrKept.bind {α : Type} {first : Writing α} {next : α → Writing Unit}
    (hfirst : (outcome first root).2 = root)
    (hnext : ∀ a, WrittenOrKept path text root (outcome (next a) root)) :
    WrittenOrKept path text root (outcome (first >>= next) root) := by
  rcases hrun : outcome first root with ⟨failure | a, mid⟩
  · rw [hrun] at hfirst
    obtain rfl : mid = root := hfirst
    rw [outcome_bind_of_error hrun]
    exact .kept rfl (.refl _)
  · rw [hrun] at hfirst
    obtain rfl : mid = root := hfirst
    rw [outcome_bind_of_ok hrun]
    exact hnext a

theorem write_writtenOrKept (path : Path) (text language : Text) (validate : Bool)
    (root : FileTree) :
    WrittenOrKept path text root (outcome (write path text language validate) root) := by
  unfold write
  cases validate with
  | false => exact replaceFile_writtenOrKept path text root
  | true => exact .bind (outcome_check ..) fun _ => replaceFile_writtenOrKept path text root

/-- A file that is written alone, whether another one may be there or not, is written whole, or
nothing is. -/
theorem write_allOrNothing (path : Path) (text language : Text) (validate : Bool)
    (root : FileTree) :
    WrittenOrKept path text root (outcome (write path text language validate) root) ∧
      WrittenOrKept path text root (outcome (writeIfAbsent path text language validate) root) := by
  refine ⟨write_writtenOrKept path text language validate root, ?_⟩
  unfold writeIfAbsent
  rw [outcome_get_bind]
  refine .bind ?_ fun isTaken => ?_
  · cases root.hasPath path <;> rfl
  · cases isTaken with
    | true => exact .kept rfl (.refl _)
    | false => exact write_writtenOrKept path text language validate root

/-! ## A batch -/

theorem writeFile_puts (hrun : outcome (writeFile atomic path text) root = (.ok (), after)) :
    ∃ mid string, outcome (makeParent path) root = (.ok (), mid) ∧
      text.toString? = some string ∧ mid.Puts path string after := by
  cases atomic with
  | true => exact replaceFile_puts hrun
  | false => exact overwriteFile_puts hrun

theorem writeEach_opensWays (hrun : outcome (writeEach atomic files) root = (.ok (), after)) :
    root.OpensWays (files.map (·.1)) after := by
  induction files generalizing root with
  | nil =>
      obtain ⟨-, rfl⟩ := Prod.ext_iff.mp hrun
      exact .refl _
  | cons file rest ih =>
      obtain ⟨path, text⟩ := file
      rw [writeEach_cons] at hrun
      obtain ⟨_, written, hwrite, hrest⟩ := outcome_bind_ok hrun
      obtain ⟨mid, string, hparent, -, hputs⟩ := writeFile_puts hwrite
      have hfirst : root.OpensWays [path] written :=
        (makeParent_gainsOn hparent).opensWays.trans hputs.opensWays
      exact hfirst.trans (ih hrest)

theorem writeEach_located (hrun : outcome (writeEach atomic files) root = (.ok (), after)) :
    ∀ file ∈ files, ∃ place string, file.2.toString? = some string ∧
      after.locatePath file.1 = .ok place := by
  induction files generalizing root with
  | nil => simp
  | cons file rest ih =>
      obtain ⟨path, text⟩ := file
      rw [writeEach_cons] at hrun
      obtain ⟨_, mid, hwrite, hrest⟩ := outcome_bind_ok hrun
      obtain ⟨place, string, hstring, hlocate, -⟩ := writeFile_ok hwrite
      have hlater : after.locatePath path = .ok place :=
        (directoriesIn_of_writeEach hrest).locatePath hlocate
      exact List.forall_mem_cons.mpr ⟨⟨place, string, hstring, hlater⟩, ih hrest⟩

/-- Each of some texts is in the file that its path leads to, and all other files are as before.
Whatever is new besides is a directory on the way of one of the paths. -/
structure Delivered (files : List (Path × Text)) (before after : FileTree) : Prop where
  holds : ∀ file ∈ files, ∃ place string, file.2.toString? = some string ∧
    after.locatePath file.1 = .ok place ∧ after.text? place = some string
  spares : ∀ place, (∀ file ∈ files, after.locatePath file.1 ≠ .ok place) →
    after.text? place = before.text? place
  ways : before.OpensWays (files.map (·.1)) after

theorem writeEach_delivers
    (hdistinct : files.Pairwise fun first second =>
      ∀ place, after.locatePath first.1 = .ok place → after.locatePath second.1 ≠ .ok place)
    (hrun : outcome (writeEach atomic files) root = (.ok (), after)) :
    Delivered files root after where
  holds := by
    intro file hfile
    obtain ⟨place, string, hstring, hlocate⟩ := writeEach_located hrun file hfile
    refine ⟨place, string, hstring, hlocate, ?_⟩
    rw [writeEach_ok hrun, FileTree.overlay_of_located hdistinct hfile hlocate, hstring]
  spares := fun place hplace => writeEach_keeps hrun hplace
  ways := writeEach_opensWays hrun

/-- A path to be taken from a directory on, without steps up. -/
structure IsOrdinary (relative : Path) : Prop where
  unanchored : relative.anchor = .here
  upless : (".." : Text) ∉ relative.steps

variable {directory relative other : Path} {place : Place}

theorem IsOrdinary.steps_join (hordinary : IsOrdinary relative) :
    (directory.join relative).steps = directory.steps ++ relative.steps := by
  simp [Path.join, Path.isAbsolute, hordinary.unanchored]

/-- Below a directory, an ordinary path leads to the place that it spells. -/
theorem IsOrdinary.locatePath_join (hordinary : IsOrdinary relative)
    (hlocate : root.locatePath (directory.join relative) = .ok place) :
    ∃ base, root.follow [] directory.steps = .ok base ∧
      root.follow base relative.steps = .ok place.reverse ∧
      place.reverse = relative.steps.reverse ++ base := by
  obtain ⟨-, hfollow⟩ := FileTree.locatePath_eq_ok.mp hlocate
  rw [hordinary.steps_join] at hfollow
  obtain ⟨base, hbase, hrest⟩ := FileTree.exists_of_follow_append hfollow
  exact ⟨base, hbase, hrest, FileTree.above_eq_of_follow hordinary.upless hrest⟩

theorem IsOrdinary.join_eq_of_locatePath (hordinary : IsOrdinary relative)
    (hother : IsOrdinary other) (hlocate : root.locatePath (directory.join relative) = .ok place)
    (hsame : root.locatePath (directory.join other) = .ok place) :
    directory.join relative = directory.join other := by
  obtain ⟨base, hbase, -, hplace⟩ := hordinary.locatePath_join hlocate
  obtain ⟨found, hfound, -, hspelled⟩ := hother.locatePath_join hsame
  obtain rfl : base = found := Except.ok.inj (hbase.symm.trans hfound)
  have hsteps : relative.steps = other.steps := by
    have happend := hplace.symm.trans hspelled
    exact List.reverse_injective (List.append_cancel_right happend)
  unfold Path.join Path.isAbsolute
  simp [hordinary.unanchored, hother.unanchored, hsteps]

/-- A path that led nowhere leads to a place where nothing was, unless its directory stepped up
where there was no directory yet. -/
theorem IsOrdinary.absent_of_hasPath (hordinary : IsOrdinary relative)
    (hsettles : root.Settles directory) (hdirectories : root.DirectoriesIn after)
    (hnowhere : root.hasPath (directory.join relative) = .ok false)
    (hlocate : after.locatePath (directory.join relative) = .ok place) :
    root.node? place = none := by
  by_contra hthere
  have hroom : root.HasRoom place := FileTree.hasRoom_of_node? hthere
  have hbefore : root.locatePath (directory.join relative) = .ok place := by
    by_cases hups : (".." : Text) ∈ directory.steps
    · obtain ⟨base, hbase, hrest, -⟩ := hordinary.locatePath_join hlocate
      obtain ⟨found, hfound⟩ := hsettles hups
      have hfollow := (FileTree.locatePath_eq_ok.mp hfound).2
      obtain rfl : found.reverse = base :=
        Except.ok.inj ((hdirectories.follow hfollow).symm.trans hbase)
      have hearlier : root.follow found.reverse relative.steps = .ok place.reverse :=
        FileTree.follow_of_hasRoom hordinary.upless hrest (by rwa [List.reverse_reverse])
      refine FileTree.locatePath_eq_ok.mpr ⟨(FileTree.locatePath_eq_ok.mp hlocate).1, ?_⟩
      rw [hordinary.steps_join]
      exact FileTree.follow_append hfollow hearlier
    · refine FileTree.locatePath_of_hasRoom ?_ hlocate hroom
      rw [hordinary.steps_join, List.mem_append, not_or]
      exact ⟨hups, hordinary.upless⟩
  have habsent : root.get? place = none := by
    simpa [FileTree.hasPath, hbefore] using hnowhere
  exact hthere (by simp [FileTree.node?, habsent])

/-- A batch that could be written is delivered.  If existing files are protected, no target led
anywhere before, and nothing was where it leads now. -/
theorem writeBatch_delivers {batch : List Java.File} {language : Text} {mode : OutputMode}
    {paths : List Path} (hordinary : ∀ file ∈ batch, IsOrdinary (.ofText file.path))
    (hdistinct : ((targets directory batch).map (·.1)).Nodup)
    (hrun : outcome (writeBatch directory batch language mode atomic) root = (.ok paths, after)) :
    paths = (targets directory batch).map (·.1) ∧
      Delivered (targets directory batch) root after ∧
      (mode = .errorIfExists → ∀ target ∈ targets directory batch,
        root.hasPath target.1 = .ok false ∧
          (root.Settles directory → ∀ place, after.locatePath target.1 = .ok place →
            root.node? place = none)) := by
  obtain ⟨-, failure, hfailed⟩ | ⟨hnowhere, hwrite⟩ := writeBatch_cases hrun
  · simp at hfailed
  obtain ⟨_, mid, hended, hdone⟩ := outcome_bind_ok hwrite
  obtain ⟨hpaths, rfl⟩ : (targets directory batch).map (·.1) = paths ∧ mid = after := by
    simpa using hdone
  have hplaces : (targets directory batch).Pairwise fun first second =>
      ∀ place, mid.locatePath first.1 = .ok place → mid.locatePath second.1 ≠ .ok place := by
    refine (List.pairwise_map.mp hdistinct).imp_of_mem ?_
    intro first second hfirst hsecond hne place hlocate hsame
    obtain ⟨file, hfile, rfl⟩ := List.mem_map.mp hfirst
    obtain ⟨other, hother, rfl⟩ := List.mem_map.mp hsecond
    exact hne ((hordinary file hfile).join_eq_of_locatePath (hordinary other hother) hlocate hsame)
  refine ⟨hpaths.symm, writeEach_delivers hplaces hended, ?_⟩
  rintro rfl target htarget
  have hfree : root.hasPath target.1 = .ok false := hnowhere rfl target htarget
  obtain ⟨file, hfile, rfl⟩ := List.mem_map.mp htarget
  exact ⟨hfree, fun hsettles place =>
    (hordinary file hfile).absent_of_hasPath hsettles (directoriesIn_of_writeEach hended) hfree⟩

/-- New notes beside the old ones, and more of them in a directory of their own. -/
def notesBatch : List Java.File :=
  [⟨"notes.new", "some"⟩, ⟨"more/notes", "others"⟩]

theorem writeBatch_delivers_notes :
    ∃ paths after, outcome (writeBatch (.ofText "") notesBatch "text" .errorIfExists true) notesTree =
        (.ok paths, after) ∧
      paths = (targets (.ofText "") notesBatch).map (·.1) ∧
      Delivered (targets (.ofText "") notesBatch) notesTree after ∧
      (OutputMode.errorIfExists = .errorIfExists → ∀ target ∈ targets (.ofText "") notesBatch,
        notesTree.hasPath target.1 = .ok false ∧
          (notesTree.Settles (.ofText "") → ∀ place, after.locatePath target.1 = .ok place →
            notesTree.node? place = none)) := by
  have hwritten : (outcome (writeBatch (.ofText "") notesBatch "text" .errorIfExists true)
      notesTree).1.isOk = true := by decide +kernel
  have hordinary : ∀ file ∈ notesBatch, IsOrdinary (.ofText file.path) :=
    List.forall_mem_cons.mpr ⟨⟨by decide, by decide⟩,
      List.forall_mem_cons.mpr ⟨⟨by decide, by decide⟩, by simp⟩⟩
  have hdistinct : ((targets (.ofText "") notesBatch).map (·.1)).Nodup := by decide +kernel
  rcases hrun : outcome (writeBatch (.ofText "") notesBatch "text" .errorIfExists true) notesTree with
    ⟨failure | paths, after⟩
  · rw [hrun] at hwritten
    simp [Except.isOk, Except.toBool] at hwritten
  · exact ⟨paths, after, rfl, writeBatch_delivers hordinary hdistinct hrun⟩

end Writing
end ApiBindings
