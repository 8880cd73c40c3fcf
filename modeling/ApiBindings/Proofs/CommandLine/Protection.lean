import ApiBindings.CommandLine.Run
import ApiBindings.Proofs.Settings
import ApiBindings.Proofs.Writing.Batch
/-!
# Protection of existing files

A run that is not told to replace files looks its targets up before it writes.
The look-up is worth something only if the mode, where one is given, is a text,
and if no target steps up through a directory that the run is still to make:
such a path leads nowhere at first and to an existing file later.  Under these
conditions no run changes a file that was there before it, and neither does any
sequence of such runs.
-/

namespace ApiBindings
namespace FileTree

variable {root after : FileTree} {path : Path} {place : Place}

theorem Settles.locatePath_ne (hsettles : root.Settles path)
    (hdirectories : root.DirectoriesIn after) (hnowhere : root.hasPath path = .ok false)
    (hthere : root.node? place ≠ none) : after.locatePath path ≠ .ok place := by
  intro hlater
  have hbefore : root.locatePath path = .ok place := by
    by_cases hups : (".." : Text) ∈ path.steps
    · obtain ⟨found, hfound⟩ := hsettles hups
      have hsame : found = place :=
        Except.ok.inj ((hdirectories.locatePath hfound).symm.trans hlater)
      rw [hfound, hsame]
    · exact locatePath_of_hasRoom hups hlater (hasRoom_of_node? hthere)
  have habsent : root.get? place = none := by simpa [hasPath, hbefore] using hnowhere
  exact hthere (by simp [node?, habsent])

end FileTree

namespace Generation

open Writing

theorem write_keeps {settings : Settings} {language : Text} {commandLine : Invocation}
    {schema : Json} {directory : Path} {root after : FileTree}
    {result : Except WriteFailure (List Path)} {place : Place} {text : String}
    (hmode : ∀ mode atomic, settings.output = some (.options mode atomic) → protects mode = true)
    (hsettles : ∀ batch, files settings language commandLine schema = .ok batch →
      ∀ target ∈ targets directory batch, root.Settles target.1)
    (hrun : outcome (write settings language commandLine schema directory) root = (result, after))
    (htext : root.text? place = some text) : after.text? place = some text := by
  have hthere : root.node? place ≠ none := by
    intro hnone
    simp [FileTree.text?, hnone] at htext
  unfold write at hrun
  split at hrun
  next =>
    obtain ⟨-, rfl⟩ := Prod.ext_iff.mp hrun
    exact htext
  next batch hbatch =>
    split at hrun
    next mode atomic houtput =>
      obtain ⟨rfl, -⟩ | ⟨hnowhere, hwrite⟩ := writeBatch_cases hrun
      · exact htext
      have hwritten : ∃ ended, outcome (writeEach atomic.isTruthy (targets directory batch)) root =
          (ended, after) := by
        obtain ⟨failure, hfirst, -⟩ | ⟨_, mid, hfirst, hdone⟩ := outcome_bind_cases hwrite
        · exact ⟨_, hfirst⟩
        · obtain ⟨-, rfl⟩ := Prod.ext_iff.mp hdone
          exact ⟨_, hfirst⟩
      obtain ⟨ended, hended⟩ := hwritten
      have hdirectories : root.DirectoriesIn after := directoriesIn_of_writeEach hended
      have hplace : ∀ target ∈ targets directory batch, after.locatePath target.1 ≠ .ok place := by
        intro target htarget
        have hfree : root.hasPath target.1 = .ok false := hnowhere (hmode mode atomic houtput) target htarget
        exact (hsettles batch hbatch target htarget).locatePath_ne hdirectories hfree hthere
      rw [writeEach_keeps hended hplace, htext]
    next =>
      obtain ⟨-, rfl⟩ := Prod.ext_iff.mp hrun
      exact htext

end Generation

namespace CommandLine

open Writing

variable {here place : Place} {args : List Text} {root : FileTree} {text : String}

/-! ## What a run is told -/

/-- Whether the arguments tell a run to replace existing files. -/
def isForced (args : List Text) : Bool :=
  (Arguments.read? args).any (·.options.force)

/-- The object that a run takes its settings from, if the arguments name one. -/
def settingsObject? (here : Place) (args : List Text) (root : FileTree) : Option Json := do
  let arguments ← Arguments.read? args
  let request ← (Request.of here root arguments).toOption
  let path ← request.config
  (readJson root path).toOption

/-- A run that is not told to replace files, that takes its mode from a text if
from anything, and whose targets lead where they will lead when it writes. -/
structure Guarded (here : Place) (args : List Text) (root : FileTree) : Prop where
  unforced : isForced args = false
  mode : ∀ config, settingsObject? here args root = some config →
    Settings.givenMode? config ≠ some (.str "force")
  textual : ∀ config given, settingsObject? here args root = some config →
    Settings.givenMode? config = some given → ∃ name, given = .str name
  settled : ∀ work batch, job here args root = .ok work →
    Generation.files work.settings work.language work.commandLine work.schema = .ok batch →
      ∀ target ∈ targets work.directory batch, root.Settles target.1

theorem options_of_request {arguments : Arguments} {request : Request}
    (hrequest : Request.of here root arguments = .ok request) :
    request.options = arguments.options := by
  unfold Request.of at hrequest
  dsimp only at hrequest
  split at hrequest
  -- The language is looked at once more if it came first.
  on_goal 1 => obtain ⟨_, -, hrequest⟩ := exists_of_bind_ok hrequest
  all_goals
    obtain ⟨config, -, hrequest⟩ := exists_of_bind_ok hrequest
    obtain ⟨_, -, hrequest⟩ := exists_of_bind_ok hrequest
    split at hrequest
    next => simp [throw, throwThe, MonadExceptOf.throw] at hrequest
    next =>
      obtain ⟨schema, -, hrequest⟩ := exists_of_bind_ok hrequest
      split at hrequest
      next => simp [throw, throwThe, MonadExceptOf.throw] at hrequest
      next =>
        obtain ⟨directory, -, hrequest⟩ := exists_of_bind_ok hrequest
        split at hrequest
        next => rw [← Except.ok.inj hrequest]
        next => simp [throw, throwThe, MonadExceptOf.throw] at hrequest

theorem request_of_job {work : Job} (hjob : job here args root = .ok work) :
    ∃ arguments request, Arguments.read? args = some arguments ∧
      Request.of here root arguments = .ok request ∧
      readSettings request root = .ok work.settings := by
  unfold job at hjob
  split at hjob
  next => simp at hjob
  next arguments hread =>
    obtain ⟨request, hrequest, hjob⟩ := exists_of_bind_ok hjob
    obtain ⟨schema, -, hjob⟩ := exists_of_bind_ok hjob
    obtain ⟨settings, hsettings, hjob⟩ := exists_of_bind_ok hjob
    obtain rfl := Except.ok.inj hjob
    exact ⟨arguments, request, hread, hrequest, hsettings⟩

theorem settings_of_unforced {request : Request} {settings : Settings}
    (hforce : request.options.force = false) (hsettings : readSettings request root = .ok settings) :
    settings = .defaults ∨ ∃ path config, request.config = some path ∧
      readJson root path = .ok config ∧ Settings.ofJson config = .ok settings := by
  unfold readSettings at hsettings
  cases hconfig : request.config with
  | none =>
      left
      simpa [hconfig, hforce, bind, Except.bind, pure, Except.pure, eq_comm] using hsettings
  | some path =>
      rw [hconfig] at hsettings
      obtain ⟨config, hjson, hsettings⟩ := exists_of_bind_ok hsettings
      obtain ⟨read, hread, hsettings⟩ := exists_of_bind_ok hsettings
      obtain rfl : read = settings := by
        simpa [hforce, pure, Except.pure] using hsettings
      refine .inr ⟨path, config, rfl, hjson, ?_⟩
      cases hobject : Settings.ofJson config with
      | error failure => simp [hobject, orReply] at hread
      | ok found => simpa [hobject, orReply] using hread

theorem proper_of_readJson {path : Path} {config : Json}
    (hread : readJson root path = .ok config) : config.Proper := by
  unfold readJson at hread
  split at hread
  next =>
    split at hread
    next htext =>
      obtain rfl := Except.ok.inj hread
      exact Json.proper_of_ofText htext
    next => simp at hread
  next => simp at hread
  next => simp at hread

theorem protects_of_ofJson_str {name : Text} {mode : OutputMode} (hname : name ≠ "force")
    (hmode : OutputMode.ofJson (.str name) = .ok mode) : protects mode = true := by
  rw [OutputMode.ofJson, OutputMode.ofName?, if_neg hname] at hmode
  by_cases herror : name = "error"
  · rw [if_pos herror] at hmode
    obtain rfl := Except.ok.inj hmode
    rfl
  · simp [herror] at hmode

theorem protects_of_job {work : Job} {mode : OutputMode} {atomic : Json}
    (hguarded : Guarded here args root) (hjob : job here args root = .ok work)
    (houtput : work.settings.output = some (.options mode atomic)) : protects mode = true := by
  obtain ⟨arguments, request, hread, hrequest, hsettings⟩ := request_of_job hjob
  have hforce : request.options.force = false := by
    have hunforced : isForced args = false := hguarded.unforced
    rw [options_of_request hrequest]
    simpa [isForced, hread] using hunforced
  obtain hdefaults | ⟨path, config, hpath, hjson, hconfig⟩ := settings_of_unforced hforce hsettings
  · obtain ⟨rfl, -⟩ : OutputMode.errorIfExists = mode ∧ Json.bool true = atomic := by
      simpa [hdefaults, Settings.defaults] using houtput
    rfl
  have hobject : settingsObject? here args root = some config := by
    simp [settingsObject?, hread, hrequest, hpath, hjson, Except.toOption]
  obtain rfl | ⟨given, hgiven, hmode⟩ :=
    Settings.mode_of_ofJson (proper_of_readJson hjson) hconfig houtput
  · rfl
  obtain ⟨name, rfl⟩ := hguarded.textual config given hobject hgiven
  have hname : name ≠ "force" := by
    rintro rfl
    exact hguarded.mode config hobject hgiven
  exact protects_of_ofJson_str hname hmode

/-! ## Runs -/

theorem run_of_job {work : Job} (hjob : job here args root = .ok work) :
    (run here args root).2 = (outcome (Generation.write work.settings work.language
      work.commandLine work.schema work.directory) root).2 := by
  unfold run outcome
  rw [hjob]
  dsimp only
  split
  next hrun => rw [hrun]
  next hrun => rw [hrun]

theorem run_keeps (hguarded : Guarded here args root) (htext : root.text? place = some text) :
    (run here args root).2.text? place = some text := by
  cases hjob : job here args root with
  | error reply =>
      rw [run, hjob]
      exact htext
  | ok work =>
      have hmode : ∀ mode atomic, work.settings.output = some (.options mode atomic) →
          protects mode = true := fun mode atomic => protects_of_job hguarded hjob
      have hsettles : ∀ batch,
          Generation.files work.settings work.language work.commandLine work.schema = .ok batch →
            ∀ target ∈ targets work.directory batch, root.Settles target.1 :=
        fun batch => hguarded.settled work batch hjob
      rw [run_of_job hjob]
      exact Generation.write_keeps hmode hsettles rfl htext

/-- The tree after some runs at a place, one after the other. -/
def runAll (here : Place) : List (List Text) → FileTree → FileTree
  | [], root => root
  | args :: rest, root => runAll here rest (run here args root).2

/-- Each of some runs protects the files that are there when it starts. -/
def AllGuarded (here : Place) : List (List Text) → FileTree → Prop
  | [], _ => True
  | args :: rest, root => Guarded here args root ∧ AllGuarded here rest (run here args root).2

theorem runAll_append (earlier later : List (List Text)) :
    runAll here (earlier ++ later) root = runAll here later (runAll here earlier root) := by
  induction earlier generalizing root with
  | nil => rfl
  | cons args rest ih => exact ih

/-- Whatever runs came before, guarded runs keep every file that they find. -/
theorem runAll_keeps {earlier later : List (List Text)}
    (hguarded : AllGuarded here later (runAll here earlier root))
    (htext : (runAll here earlier root).text? place = some text) :
    (runAll here (earlier ++ later) root).text? place = some text := by
  rw [runAll_append]
  generalize runAll here earlier root = found at hguarded htext ⊢
  induction later generalizing found with
  | nil => exact htext
  | cons args rest ih => exact ih _ hguarded.2 (run_keeps hguarded.1 htext)

/-- The run that writes the bindings of `api.json` below `out`, with more arguments. -/
def bindingRun (more : List Text) : List Text :=
  "api.json" :: "out" :: more

/-- The description of an interface, some settings, and a page that is there
already. -/
def pagedTree (name settings : String) : FileTree :=
  .directory [
    ("api.json", .file ("[\x7b\"name\":\"" ++ name ++ "\"\x7d]")),
    ("settings.json", .file settings),
    ("out", .directory [("Page.java", .file "old")])]

/-- The tree with a page that a run was told to replace. -/
def replacedTree : FileTree :=
  runAll [] [bindingRun ["--force"]] (pagedTree "Page" "")

theorem guarded_bindingRun : Guarded [] (bindingRun []) replacedTree := by
  have hobject : (settingsObject? [] (bindingRun []) replacedTree).isNone = true := by decide +kernel
  have hnone := Option.isNone_iff_eq_none.mp hobject
  have hups : (job [] (bindingRun []) replacedTree).toOption.all (fun work =>
      (Generation.files work.settings work.language work.commandLine work.schema).toOption.all
        fun batch => (targets work.directory batch).all
          fun target => !target.1.steps.contains "..") = true := by decide +kernel
  constructor
  · decide +kernel
  · intro config hconfig
    simp [hnone] at hconfig
  · intro config given hconfig
    simp [hnone] at hconfig
  · intro work batch hjob hbatch target htarget hup
    have hbatches : (targets work.directory batch).all
        (fun target => !target.1.steps.contains "..") = true := by
      simpa [hjob, hbatch, Except.toOption] using hups
    have hstays := List.all_eq_true.mp hbatches target htarget
    simp [hup] at hstays

theorem runAll_keeps_page :
    ∃ text, replacedTree.text? ["out", "Page.java"] = some text ∧
      (runAll [] ([bindingRun ["--force"]] ++ [bindingRun []]) (pagedTree "Page" "")).text?
        ["out", "Page.java"] = some text := by
  have hpage : (replacedTree.text? ["out", "Page.java"]).isSome = true := by decide +kernel
  obtain ⟨text, htext⟩ := Option.isSome_iff_exists.mp hpage
  exact ⟨text, htext, runAll_keeps ⟨guarded_bindingRun, trivial⟩ htext⟩

/-- A run changes a file that is there although it is not told to replace any. -/
def ReplacesUntold (args : List Text) (root : FileTree) : Prop :=
  isForced args = false ∧
    (∀ config, settingsObject? [] args root = some config →
      Settings.givenMode? config ≠ some (.str "force")) ∧
    ∃ place text, root.text? place = some text ∧ (run [] args root).2.text? place ≠ some text

theorem replacesUntold_of_page {args : List Text} {root : FileTree}
    (hforce : isForced args = false)
    (hmode : (settingsObject? [] args root).all
      (fun config => (Settings.givenMode? config).all fun given => !given.isText "force") = true)
    (hold : root.text? ["out", "Page.java"] = some "old")
    (hnew : (run [] args root).2.text? ["out", "Page.java"] ≠ some "old") :
    ReplacesUntold args root := by
  refine ⟨hforce, ?_, ["out", "Page.java"], "old", hold, hnew⟩
  intro config hconfig hgiven
  rw [hconfig, Option.all_some, hgiven] at hmode
  simp [Json.isText] at hmode

/-- A mode that is no text protects nothing; and what an interface is called can
lead around the look-up. -/
theorem untold_runs_replace :
    ReplacesUntold (bindingRun ["--config", "settings.json"])
      (pagedTree "Page" "\x7b\"output\":\x7b\"mode\":null\x7d\x7d") ∧
    ReplacesUntold (bindingRun []) (pagedTree "new/../Page" "") := by
  constructor
  · apply replacesUntold_of_page <;> decide +kernel
  · apply replacesUntold_of_page <;> decide +kernel

end CommandLine
end ApiBindings
