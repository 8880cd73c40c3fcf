import ApiBindings.Proofs.FileTree.Paths
import ApiBindings.Writing
import Mathlib.Logic.Function.Basic
/-!
# Writing one file

What a step of writing leaves behind, also when it fails.  Making directories
leaves all files as they are and adds directories on the way of the path only.
Writing a file changes the text at the place that the path leads to and nothing
else; a refused write changes no text at all, unless the file was already
emptied for a text that cannot be encoded.
-/

namespace ApiBindings

/-- Whether it was the operating system that refused something. -/
def WriteFailure.IsFault (failure : WriteFailure) : Prop :=
  ∃ fault path, failure = .fault fault path

namespace FileTree

variable {root before mid after tree : FileTree} {place : Place} {text : String} {path : Path}
  {steps more : List Text}

/-- One tree is another one with some more directories. -/
def Gains (before after : FileTree) : Prop :=
  ∀ place, after.node? place = before.node? place ∨
    before.node? place = none ∧ after.node? place = some .directory

/-- Some of the first steps of a path, or all of them, lead to a place. -/
def Passes (root : FileTree) (steps : List Text) (place : Place) : Prop :=
  ∃ first, first <+: steps ∧ root.locate first = .ok place

/-- One tree is another one with some more directories, which some steps pass. -/
def GainsOn (steps : List Text) (before after : FileTree) : Prop :=
  ∀ place, after.node? place = before.node? place ∨
    before.node? place = none ∧ after.node? place = some .directory ∧ after.Passes steps place

/-- A path leads to a place without a directory, and there one tree has a text
in addition. -/
def Puts (before : FileTree) (path : Path) (string : String) (after : FileTree) : Prop :=
  ∃ place, before.locatePath path = .ok place ∧ before.node? place ≠ some .directory ∧
    after = before.put place (.file string)

/-- One tree is another one with a text at a place, and maybe with some more
directories. -/
structure Wrote (before : FileTree) (place : Place) (text : String) (after : FileTree) : Prop where
  texts : after.text? = Function.update before.text? place (some text)
  directories : before.DirectoriesIn after

theorem Gains.refl (root : FileTree) : root.Gains root := fun _ => .inl rfl

theorem Gains.trans (hfirst : before.Gains mid) (hsecond : mid.Gains after) :
    before.Gains after := by
  intro place
  obtain hsecond | ⟨hnone, hmade⟩ := hsecond place
  · rw [hsecond]
    exact hfirst place
  · obtain hfirst | ⟨-, hdirectory⟩ := hfirst place
    · exact .inr ⟨by rw [← hfirst, hnone], hmade⟩
    · simp [hnone] at hdirectory

theorem locate_eq_ok : root.locate steps = .ok place ↔ root.follow [] steps = .ok place.reverse := by
  unfold locate
  cases hfollow : root.follow [] steps with
  | error fault => simp [bind, Except.bind]
  | ok above => simp [bind, Except.bind, pure, Except.pure, List.reverse_eq_iff]

theorem Passes.mono (hpasses : before.Passes steps place) (hmore : steps <+: more)
    (hdirectories : before.DirectoriesIn after) : after.Passes more place := by
  obtain ⟨first, hfirst, hlocate⟩ := hpasses
  refine ⟨first, hfirst.trans hmore, locate_eq_ok.mpr ?_⟩
  exact hdirectories.follow (locate_eq_ok.mp hlocate)

theorem GainsOn.gains (hgains : GainsOn steps before after) : before.Gains after := by
  intro place
  exact (hgains place).imp_right fun hnew => ⟨hnew.1, hnew.2.1⟩

theorem GainsOn.refl (steps : List Text) (root : FileTree) : GainsOn steps root root :=
  fun _ => .inl rfl

theorem Gains.texts (hgains : before.Gains after) : after.text? = before.text? := by
  funext place
  obtain hsame | ⟨hnone, hmade⟩ := hgains place
  · simp [text?, hsame]
  · simp [text?, hnone, hmade, Node.text?]

theorem Gains.directories (hgains : before.Gains after) : before.DirectoriesIn after := by
  intro place hdirectory
  obtain hsame | ⟨hnone, -⟩ := hgains place
  · rw [hsame, hdirectory]
  · simp [hnone] at hdirectory

theorem GainsOn.mono (hgains : GainsOn steps before after) (hmore : steps <+: more) :
    GainsOn more before after := by
  intro place
  obtain hsame | ⟨hnone, hmade, hpasses⟩ := hgains place
  · exact .inl hsame
  · exact .inr ⟨hnone, hmade, hpasses.mono hmore (.refl after)⟩

theorem GainsOn.trans (hfirst : GainsOn steps before mid) (hsecond : GainsOn steps mid after) :
    GainsOn steps before after := by
  intro place
  obtain hsame | ⟨hnone, hmade, hpasses⟩ := hsecond place
  · rw [hsame]
    refine (hfirst place).imp_right fun ⟨hnone, hmade, hpasses⟩ => ⟨hnone, hmade, ?_⟩
    exact hpasses.mono (List.prefix_refl _) hsecond.gains.directories
  · obtain hfirst | ⟨-, hdirectory, -⟩ := hfirst place
    · exact .inr ⟨by rw [← hfirst, hnone], hmade, hpasses⟩
    · simp [hnone] at hdirectory

theorem gains_put_empty (hroom : root.HasRoom place) (habsent : root.node? place = none) :
    root.Gains (root.put place .empty) := by
  intro other
  rw [node?_put hroom (by simp [habsent]) rfl]
  split
  next hother =>
    subst hother
    exact .inr ⟨habsent, rfl⟩
  next => exact .inl rfl

theorem wrote_put_file (hroom : root.HasRoom place) (hfree : root.node? place ≠ some .directory) :
    root.Wrote place text (root.put place (.file text)) where
  texts := by
    funext other
    by_cases hother : other = place
    · simp [text?, node?_put_file hroom hfree, hother, Node.text?]
    · simp [text?, node?_put_file hroom hfree, hother]
  directories := by
    intro other hdirectory
    have hother : other ≠ place := by
      rintro rfl
      exact hfree hdirectory
    rw [node?_put_file hroom hfree, if_neg hother, hdirectory]

theorem Puts.wrote (hputs : before.Puts path text after) :
    ∃ place, after.locatePath path = .ok place ∧ before.Wrote place text after := by
  obtain ⟨place, hlocate, hfree, rfl⟩ := hputs
  have hwrote : before.Wrote place text (before.put place (.file text)) :=
    wrote_put_file (hasRoom_of_locatePath hlocate) hfree
  exact ⟨place, hwrote.directories.locatePath hlocate, hwrote⟩

theorem Wrote.of_gains (hgains : before.Gains mid) (hwrote : mid.Wrote place text after) :
    before.Wrote place text after where
  texts := by rw [hwrote.texts, hgains.texts]
  directories := hgains.directories.trans hwrote.directories

/-- A new file hides no directory and makes none. -/
theorem directoriesIn_of_put_file (habsent : root.node? place = none) :
    (root.put place (.file text)).DirectoriesIn root := by
  intro other hdirectory
  by_cases hroom : root.HasRoom place
  · rw [node?_put_file hroom (by simp [habsent])] at hdirectory
    split at hdirectory
    next => simp at hdirectory
    next => exact hdirectory
  · rwa [put_of_not_hasRoom hroom] at hdirectory

theorem directoriesIn_put_file (habsent : root.node? place = none) :
    root.DirectoriesIn (root.put place (.file text)) := by
  by_cases hroom : root.HasRoom place
  · exact (wrote_put_file hroom (by simp [habsent])).directories
  · rw [put_of_not_hasRoom hroom]
    exact DirectoriesIn.refl root

theorem eq_of_get?_put_absent (habsent : root.get? place = none)
    (hfound : (root.put place tree).get? place = some before) : before = tree := by
  by_cases hroom : root.HasRoom place
  · rw [get?_put_self hroom] at hfound
    exact (Option.some.inj hfound).symm
  · simp [put_of_not_hasRoom hroom, habsent] at hfound

end FileTree

namespace Writing

variable {α β : Type} {root after : FileTree} {path : Path} {text : Text}

/-! ## How steps end -/

/-- How a step ends, and the tree that it leaves. -/
def outcome (step : Writing α) (root : FileTree) : Except WriteFailure α × FileTree :=
  step.run.run root

@[simp] theorem outcome_pure (a : α) : outcome (pure a) root = (.ok a, root) := rfl

@[simp] theorem outcome_throw (failure : WriteFailure) :
    outcome (throw failure : Writing α) root = (.error failure, root) := rfl

@[simp] theorem outcome_refuse (fault : Fault) (path : Path) :
    outcome (refuse fault path : Writing α) root = (.error (.fault fault path), root) := rfl

@[simp] theorem outcome_set (tree : FileTree) :
    outcome (set tree : Writing PUnit) root = (.ok ⟨⟩, tree) := rfl

@[simp] theorem outcome_get_bind (next : FileTree → Writing β) :
    outcome (get >>= next) root = outcome (next root) root := rfl

@[simp] theorem outcome_modify (change : FileTree → FileTree) :
    outcome (modify change) root = (.ok ⟨⟩, change root) := rfl

@[simp] theorem outcome_modify_bind (change : FileTree → FileTree) (next : PUnit → Writing β) :
    outcome (modify change >>= next) root = outcome (next ⟨⟩) (change root) := rfl

theorem outcome_tryCatch (step : Writing α) (handle : WriteFailure → Writing α) :
    outcome (tryCatch step handle) root =
      match outcome step root with
      | (.ok a, after) => (.ok a, after)
      | (.error failure, after) => outcome (handle failure) after := by
  unfold outcome
  rw [run_tryCatch]
  rcases step.run.run root with ⟨failure | a, after⟩ <;> rfl

theorem outcome_bind_of_ok {first : Writing α} {next : α → Writing β} {a : α} {mid : FileTree}
    (hfirst : outcome first root = (.ok a, mid)) :
    outcome (first >>= next) root = outcome (next a) mid := by
  unfold outcome at *
  rw [run_bind, hfirst]

theorem outcome_bind_of_error {first : Writing α} {next : α → Writing β} {failure : WriteFailure}
    {mid : FileTree} (hfirst : outcome first root = (.error failure, mid)) :
    outcome (first >>= next) root = (.error failure, mid) := by
  unfold outcome at *
  rw [run_bind, hfirst]

theorem outcome_bind_cases {first : Writing α} {next : α → Writing β}
    {result : Except WriteFailure β} (hrun : outcome (first >>= next) root = (result, after)) :
    (∃ failure, outcome first root = (.error failure, after) ∧ result = .error failure) ∨
      ∃ a mid, outcome first root = (.ok a, mid) ∧ outcome (next a) mid = (result, after) :=
  run_bind_cases hrun

theorem outcome_bind_ok {first : Writing α} {next : α → Writing β} {b : β}
    (hrun : outcome (first >>= next) root = (.ok b, after)) :
    ∃ a mid, outcome first root = (.ok a, mid) ∧ outcome (next a) mid = (.ok b, after) :=
  run_bind_ok hrun

theorem outcome_bind_error {first : Writing α} {next : α → Writing β} {failure : WriteFailure}
    (hrun : outcome (first >>= next) root = (.error failure, after)) :
    outcome first root = (.error failure, after) ∨
      ∃ a mid, outcome first root = (.ok a, mid) ∧
        outcome (next a) mid = (.error failure, after) :=
  run_bind_error hrun

theorem outcome_ofExcept_ok {answer : Except Fault α} {a : α}
    (hrun : outcome (ofExcept path answer) root = (.ok a, after)) :
    answer = .ok a ∧ after = root := by
  cases answer with
  | error fault => simp [ofExcept] at hrun
  | ok found =>
      obtain ⟨rfl, rfl⟩ := by simpa [ofExcept] using hrun
      exact ⟨rfl, rfl⟩

theorem outcome_ofExcept_error {answer : Except Fault α} {failure : WriteFailure}
    (hrun : outcome (ofExcept path answer) root = (.error failure, after)) :
    failure.IsFault ∧ after = root := by
  cases answer with
  | error fault =>
      obtain ⟨rfl, rfl⟩ := by simpa [ofExcept] using hrun
      exact ⟨⟨fault, path, rfl⟩, rfl⟩
  | ok found => simp [ofExcept] at hrun

/-! ## Making directories -/

theorem tryMakeDirectory_ok (hmade : tryMakeDirectory root path = .ok after) :
    ∃ place, root.locatePath path = .ok place ∧ root.get? place = none ∧
      after = root.put place .empty := by
  obtain ⟨place, hlocate, hmade⟩ := exists_of_bind_ok hmade
  cases hfound : root.get? place with
  | some tree => simp [hfound, throw, throwThe, MonadExceptOf.throw] at hmade
  | none =>
      obtain rfl : root.put place .empty = after := by
        simpa [hfound, pure, Except.pure] using hmade
      exact ⟨place, hlocate, hfound, rfl⟩

theorem gainsOn_of_tryMakeDirectory (hmade : tryMakeDirectory root path = .ok after) :
    root.GainsOn path.steps after := by
  obtain ⟨place, hlocate, habsent, rfl⟩ := tryMakeDirectory_ok hmade
  have hroom : root.HasRoom place := FileTree.hasRoom_of_locatePath hlocate
  have hnone : root.node? place = none := by simp [FileTree.node?, habsent]
  have hgains : root.Gains (root.put place .empty) := FileTree.gains_put_empty hroom hnone
  have hlocated : (root.put place .empty).locate path.steps = .ok place :=
    FileTree.locate_eq_ok.mpr
      (FileTree.locatePath_eq_ok.mp (hgains.directories.locatePath hlocate)).2
  intro other
  rw [FileTree.node?_put hroom (by simp [hnone]) rfl]
  split
  next hother =>
    subst hother
    exact .inr ⟨hnone, rfl, path.steps, List.prefix_refl _, hlocated⟩
  next => exact .inl rfl

theorem gains_of_tryMakeDirectory (hmade : tryMakeDirectory root path = .ok after) :
    root.Gains after :=
  (gainsOn_of_tryMakeDirectory hmade).gains

theorem outcome_ite_refuse {holds : Prop} [Decidable holds] {fault : Fault}
    {result : Except WriteFailure Unit}
    (hrun : outcome (if holds then pure () else refuse fault path) root = (result, after)) :
    after = root ∧ ∀ failure, result = .error failure → failure.IsFault := by
  split at hrun <;> obtain ⟨rfl, rfl⟩ := Prod.ext_iff.mp hrun
  · exact ⟨rfl, by simp⟩
  · refine ⟨rfl, fun failure hfailure => ⟨fault, path, ?_⟩⟩
    exact (Except.error.inj hfailure).symm

theorem makeDirectories_gainsOn {mayExist : Bool} {anchor : Anchor} {steps : List Text}
    {result : Except WriteFailure Unit}
    (hrun : outcome (makeDirectories mayExist anchor steps) root = (result, after)) :
    root.GainsOn steps.reverse after ∧ ∀ failure, result = .error failure → failure.IsFault := by
  induction steps generalizing mayExist root after result with
  | nil =>
      rw [makeDirectories] at hrun
      obtain ⟨rfl, hfault⟩ := outcome_ite_refuse hrun
      exact ⟨.refl _ _, hfault⟩
  | cons step above ih =>
      have hway : above.reverse <+: (step :: above).reverse := by
        rw [List.reverse_cons]
        exact List.prefix_append ..
      rw [makeDirectories] at hrun
      dsimp only at hrun
      rw [outcome_get_bind] at hrun
      split at hrun
      next made hmade =>
        obtain ⟨rfl, rfl⟩ := Prod.ext_iff.mp hrun
        exact ⟨gainsOn_of_tryMakeDirectory hmade, by simp⟩
      next =>
        -- The directories on the way are made first; then there is a second attempt.
        obtain ⟨failure, habove, rfl⟩ | ⟨_, mid, habove, hrun⟩ := outcome_bind_cases hrun
        · obtain ⟨hgains, hfault⟩ := ih habove
          refine ⟨hgains.mono hway, fun other hother => hfault other ?_⟩
          rw [Except.error.inj hother]
        · have hgains := (ih habove).1.mono hway
          rw [outcome_get_bind] at hrun
          split at hrun
          next made hmade =>
            obtain ⟨rfl, rfl⟩ := Prod.ext_iff.mp hrun
            exact ⟨hgains.trans (gainsOn_of_tryMakeDirectory hmade), by simp⟩
          next =>
            rw [outcome_get_bind] at hrun
            obtain ⟨rfl, hfault⟩ := outcome_ite_refuse hrun
            exact ⟨hgains, hfault⟩
      next =>
        rw [outcome_get_bind] at hrun
        obtain ⟨rfl, hfault⟩ := outcome_ite_refuse hrun
        exact ⟨.refl _ _, hfault⟩

theorem makeParent_gainsOn {result : Except WriteFailure Unit}
    (hrun : outcome (makeParent path) root = (result, after)) :
    root.GainsOn path.parent.steps after := by
  have hgains := (makeDirectories_gainsOn hrun).1
  rwa [List.reverse_reverse] at hgains

theorem makeParent_ok {result : Except WriteFailure Unit}
    (hrun : outcome (makeParent path) root = (result, after)) : root.Gains after :=
  (makeParent_gainsOn hrun).gains

theorem makeParent_error {failure : WriteFailure}
    (hrun : outcome (makeParent path) root = (.error failure, after)) : failure.IsFault :=
  (makeDirectories_gainsOn hrun).2 failure rfl

/-! ## Temporary files -/

theorem length_le_foldl_max (lengths : List Nat) (least : Nat) :
    least ≤ lengths.foldl max least ∧ ∀ length ∈ lengths, length ≤ lengths.foldl max least := by
  induction lengths generalizing least with
  | nil => simp
  | cons first rest ih =>
      obtain ⟨hleast, hrest⟩ := ih (max least first)
      refine ⟨Nat.le_trans (Nat.le_max_left ..) hleast, List.forall_mem_cons.mpr ⟨?_, hrest⟩⟩
      exact Nat.le_trans (Nat.le_max_right ..) hleast

theorem find?_temporaryName (entries : List (Text × FileTree)) (name : Text) :
    Text.find? (temporaryName entries name) entries = none := by
  rw [Text.find?, List.lookup_eq_none_iff]
  intro entry hentry
  have hlength : entry.1.length ≤ (entries.map (·.1.length)).foldl max 0 :=
    (length_le_foldl_max _ 0).2 _ (List.mem_map_of_mem hentry)
  have hlonger : entry.1.length < (temporaryName entries name).length := by
    simp [temporaryName]
    omega
  have hne : temporaryName entries name ≠ entry.1 := by
    intro heq
    rw [heq] at hlonger
    exact absurd hlonger (Nat.lt_irrefl _)
  simpa using hne

theorem temporaryPlace_error {failure : WriteFailure}
    (hrun : outcome (temporaryPlace path) root = (.error failure, after)) :
    failure.IsFault ∧ after = root := by
  unfold temporaryPlace at hrun
  split at hrun
  next fault hfault =>
    obtain ⟨rfl, rfl⟩ := by simpa using hrun
    exact ⟨⟨fault, path, rfl⟩, rfl⟩
  next =>
    obtain hlocate | ⟨directory, mid, hlocate, hrest⟩ := outcome_bind_error hrun
    · exact outcome_ofExcept_error hlocate
    · obtain ⟨-, rfl⟩ := outcome_ofExcept_ok hlocate
      dsimp only at hrest
      split at hrest
      next =>
        obtain hrefused | ⟨_, _, hrefused, -⟩ := outcome_bind_error hrest
        · obtain ⟨rfl, rfl⟩ := by simpa using hrefused
          exact ⟨⟨_, _, rfl⟩, rfl⟩
        · simp at hrefused
      next => simp [-bind_pure_comp] at hrest

theorem temporaryPlace_ok {place : Place}
    (hrun : outcome (temporaryPlace path) root = (.ok place, after)) :
    root.get? place = none ∧ after = root := by
  unfold temporaryPlace at hrun
  split at hrun
  next fault hfault => simp at hrun
  next =>
    obtain ⟨directory, mid, hlocate, hrest⟩ := outcome_bind_ok hrun
    obtain ⟨-, rfl⟩ := outcome_ofExcept_ok hlocate
    dsimp only at hrest
    split at hrest
    next =>
      obtain ⟨_, _, hrefused, -⟩ := outcome_bind_ok hrest
      simp at hrefused
    next =>
      obtain ⟨rfl, rfl⟩ := by simpa [-bind_pure_comp] using hrest
      refine ⟨?_, rfl⟩
      -- The name is longer than those of all siblings.
      rw [FileTree.get?_append]
      cases hdirectory : mid.get? directory with
      | none => rfl
      | some tree =>
          cases tree with
          | file text => rfl
          | directory entries => simp [FileTree.get?, FileTree.entries, find?_temporaryName]

/-! ## Writing a file -/

theorem encode_ok {string : String} (hrun : outcome (encode path text) root = (.ok string, after)) :
    text.toString? = some string ∧ after = root := by
  unfold encode at hrun
  cases hstring : text.toString? with
  | none => simp [hstring] at hrun
  | some found => simpa [hstring, eq_comm] using hrun

theorem encode_error {failure : WriteFailure}
    (hrun : outcome (encode path text) root = (.error failure, after)) :
    text.toString? = none ∧ failure.IsFault ∧ after = root := by
  unfold encode at hrun
  cases hstring : text.toString? with
  | none =>
      obtain ⟨rfl, rfl⟩ := by simpa [hstring] using hrun
      exact ⟨rfl, ⟨_, _, rfl⟩, rfl⟩
  | some found => simp [hstring] at hrun

theorem encode_of_toString? {string : String} (hstring : text.toString? = some string) :
    outcome (encode path text) root = (.ok string, root) := by
  unfold encode
  rw [hstring]
  rfl

theorem encode_of_not_toString? (hstring : text.toString? = none) :
    outcome (encode path text) root = (.error (.fault .unencodable path), root) := by
  unfold encode
  rw [hstring]
  rfl

theorem tryRename_ok {source : Place} (hmoved : tryRename root source path = .ok after) :
    ∃ tree target, root.get? source = some tree ∧ root.locatePath path = .ok target ∧
      root.node? target ≠ some .directory ∧ after = (root.remove source).put target tree := by
  unfold tryRename at hmoved
  split at hmoved
  next => exact absurd hmoved (by simp [throw, throwThe, MonadExceptOf.throw, bind, Except.bind])
  next =>
    obtain ⟨target, hlocate, hmoved⟩ := exists_of_bind_ok hmoved
    split at hmoved
    next => exact absurd hmoved (by simp [throw, throwThe, MonadExceptOf.throw])
    next => exact absurd hmoved (by simp [throw, throwThe, MonadExceptOf.throw])
    next tree hsource hfree =>
      refine ⟨tree, target, hsource, hlocate, ?_, (Except.ok.inj hmoved).symm⟩
      rw [ne_eq, FileTree.node?_eq_directory_iff]
      rintro ⟨entries, htarget⟩
      exact hfree entries htarget

theorem puts_of_tryRename {temporary : Place} {string : String}
    (habsent : root.get? temporary = none)
    (hmoved : tryRename (root.put temporary (.file string)) temporary path = .ok after) :
    root.Puts path string after := by
  obtain ⟨tree, place, hsource, hlocate, hfree, rfl⟩ := tryRename_ok hmoved
  obtain rfl := FileTree.eq_of_get?_put_absent habsent hsource
  have hnode : root.node? temporary = none := by simp [FileTree.node?, habsent]
  -- The temporary file is in nobody's way: the path led there before it, too.
  have hlocated : root.locatePath path = .ok place :=
    (FileTree.directoriesIn_of_put_file hnode).locatePath hlocate
  have hfree : root.node? place ≠ some .directory := fun hdirectory =>
    hfree (FileTree.directoriesIn_put_file hnode _ hdirectory)
  rw [FileTree.remove_put habsent]
  exact ⟨place, hlocated, hfree, rfl⟩

/-- A temporary file is moved to the path or leaves no trace. -/
theorem outcome_replaceBy {temporary : Place} (habsent : root.get? temporary = none) :
    outcome (replaceBy temporary path text) root =
      match text.toString? with
      | none => (.error (.fault .unencodable path), root)
      | some string =>
        match tryRename (root.put temporary (.file string)) temporary path with
        | .ok moved => (.ok (), moved)
        | .error fault => (.error (.fault fault path), root) := by
  have hremoved : ∀ string, (root.put temporary (.file string)).remove temporary = root :=
    fun _ => FileTree.remove_put habsent
  unfold replaceBy
  rw [outcome_modify_bind, outcome_tryCatch]
  cases hstring : text.toString? with
  | none =>
      rw [outcome_bind_of_error (encode_of_not_toString? hstring)]
      simp only [outcome_modify_bind, outcome_throw, hremoved]
  | some string =>
      rw [outcome_bind_of_ok (encode_of_toString? hstring), outcome_modify_bind, FileTree.put_put,
        outcome_get_bind]
      rcases hmoved : tryRename (root.put temporary (.file string)) temporary path with
        fault | moved
      · simp only [hmoved, outcome_refuse, outcome_modify_bind, outcome_throw, hremoved]
      · simp only [hmoved, outcome_set]

theorem replaceFile_puts (hrun : outcome (replaceFile path text) root = (.ok (), after)) :
    ∃ mid string, outcome (makeParent path) root = (.ok (), mid) ∧
      text.toString? = some string ∧ mid.Puts path string after := by
  unfold replaceFile at hrun
  obtain ⟨_, mid, hparent, hrest⟩ := outcome_bind_ok hrun
  obtain ⟨temporary, _, htemporary, hwrite⟩ := outcome_bind_ok hrest
  obtain ⟨habsent, rfl⟩ := temporaryPlace_ok htemporary
  rw [outcome_replaceBy habsent] at hwrite
  split at hwrite
  next => simp at hwrite
  next string hstring =>
    split at hwrite
    next moved hmoved =>
      obtain ⟨-, rfl⟩ := Prod.ext_iff.mp hwrite
      exact ⟨_, string, hparent, hstring, puts_of_tryRename habsent hmoved⟩
    next => simp at hwrite

theorem replaceFile_ok (hrun : outcome (replaceFile path text) root = (.ok (), after)) :
    ∃ place string, text.toString? = some string ∧ after.locatePath path = .ok place ∧
      root.Wrote place string after := by
  obtain ⟨mid, string, hparent, hstring, hputs⟩ := replaceFile_puts hrun
  obtain ⟨place, hlocate, hwrote⟩ := hputs.wrote
  exact ⟨place, string, hstring, hlocate, hwrote.of_gains (makeParent_ok hparent)⟩

theorem replaceFile_error {failure : WriteFailure}
    (hrun : outcome (replaceFile path text) root = (.error failure, after)) :
    failure.IsFault ∧ root.GainsOn path.parent.steps after := by
  unfold replaceFile at hrun
  obtain hparent | ⟨_, parent, hparent, hrest⟩ := outcome_bind_error hrun
  · exact ⟨makeParent_error hparent, makeParent_gainsOn hparent⟩
  obtain htemporary | ⟨temporary, _, htemporary, hwrite⟩ := outcome_bind_error hrest
  · obtain ⟨hfault, rfl⟩ := temporaryPlace_error htemporary
    exact ⟨hfault, makeParent_gainsOn hparent⟩
  obtain ⟨habsent, rfl⟩ := temporaryPlace_ok htemporary
  rw [outcome_replaceBy habsent] at hwrite
  have hgains := makeParent_gainsOn hparent
  split at hwrite
  next =>
    obtain ⟨rfl, rfl⟩ := by simpa using hwrite
    exact ⟨⟨_, _, rfl⟩, hgains⟩
  next =>
    split at hwrite
    next => simp at hwrite
    next =>
      obtain ⟨rfl, rfl⟩ := by simpa using hwrite
      exact ⟨⟨_, _, rfl⟩, hgains⟩

theorem free_of_get? {place : Place}
    (hfree : ∀ entries, root.get? place = some (.directory entries) → False) :
    root.node? place ≠ some .directory := by
  intro hdirectory
  obtain ⟨entries, hfound⟩ := FileTree.node?_eq_directory_iff.mp hdirectory
  exact hfree entries hfound

theorem overwriteFile_puts (hrun : outcome (overwriteFile path text) root = (.ok (), after)) :
    ∃ mid string, outcome (makeParent path) root = (.ok (), mid) ∧
      text.toString? = some string ∧ mid.Puts path string after := by
  unfold overwriteFile at hrun
  obtain ⟨_, mid, hparent, hrest⟩ := outcome_bind_ok hrun
  obtain ⟨place, _, hlocate, hwrite⟩ := outcome_bind_ok hrest
  obtain ⟨hlocated, rfl⟩ := outcome_ofExcept_ok hlocate
  rw [outcome_get_bind] at hwrite
  split at hwrite
  next => simp at hwrite
  next hfree =>
    rw [outcome_modify_bind] at hwrite
    obtain ⟨string, _, hencode, hfill⟩ := outcome_bind_ok hwrite
    obtain ⟨hstring, rfl⟩ := encode_ok hencode
    rw [outcome_modify, FileTree.put_put] at hfill
    obtain ⟨-, rfl⟩ := Prod.ext_iff.mp hfill
    exact ⟨_, string, hparent, hstring, place, hlocated, free_of_get? hfree, rfl⟩

theorem overwriteFile_ok (hrun : outcome (overwriteFile path text) root = (.ok (), after)) :
    ∃ place string, text.toString? = some string ∧ after.locatePath path = .ok place ∧
      root.Wrote place string after := by
  obtain ⟨mid, string, hparent, hstring, hputs⟩ := overwriteFile_puts hrun
  obtain ⟨place, hlocate, hwrote⟩ := hputs.wrote
  exact ⟨place, string, hstring, hlocate, hwrote.of_gains (makeParent_ok hparent)⟩

/-- A file that is written directly may be left empty. -/
theorem overwriteFile_error {failure : WriteFailure}
    (hrun : outcome (overwriteFile path text) root = (.error failure, after)) :
    failure.IsFault ∧ (root.Gains after ∨ text.toString? = none ∧
      ∃ place, after.locatePath path = .ok place ∧ root.Wrote place "" after) := by
  unfold overwriteFile at hrun
  obtain hparent | ⟨_, parent, hparent, hrest⟩ := outcome_bind_error hrun
  · exact ⟨makeParent_error hparent, .inl (makeParent_ok hparent)⟩
  have hgains := makeParent_ok hparent
  obtain hlocate | ⟨place, _, hlocate, hwrite⟩ := outcome_bind_error hrest
  · obtain ⟨hfault, rfl⟩ := outcome_ofExcept_error hlocate
    exact ⟨hfault, .inl hgains⟩
  obtain ⟨hlocated, rfl⟩ := outcome_ofExcept_ok hlocate
  rw [outcome_get_bind] at hwrite
  split at hwrite
  next =>
    obtain ⟨rfl, rfl⟩ := by simpa using hwrite
    exact ⟨⟨_, _, rfl⟩, .inl hgains⟩
  next hfree =>
    rw [outcome_modify_bind] at hwrite
    obtain hencode | ⟨string, _, hencode, hfill⟩ := outcome_bind_error hwrite
    · obtain ⟨hstring, hfault, rfl⟩ := encode_error hencode
      have hputs : FileTree.Puts _ path "" _ := ⟨place, hlocated, free_of_get? hfree, rfl⟩
      obtain ⟨found, hfound, hwrote⟩ := hputs.wrote
      exact ⟨hfault, .inr ⟨hstring, found, hfound, hwrote.of_gains hgains⟩⟩
    · simp at hfill

end Writing
end ApiBindings
