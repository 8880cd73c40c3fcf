import ApiBindings.FileTree
import ApiBindings.Java.Check
import ApiBindings.Java.Files
/-!
# Writing files

A batch of generated files is checked and, unless existing files may be
replaced, looked up as a whole before the first of them is written.  An atomic
write goes to a temporary file in the same directory, which then takes the
place of the target and is removed if anything fails on the way.
-/

namespace ApiBindings

/-- What exists already and must not be replaced. -/
inductive Taken where
  | file (path : Path)
  /-- Some targets of a batch. -/
  | targets (paths : List Path)
deriving DecidableEq, Repr

def Taken.message : Taken → Text
  | .file path =>
    "Output file already exists: " ++ path.text ++ ". Use force mode to overwrite."
  | .targets paths =>
    "Output files already exist: " ++ Text.join ", " (paths.map Path.text) ++
      ". Use force mode to overwrite."

/-- Why something could not be written. -/
inductive WriteFailure where
  /-- There is nothing to write, or a text that is no Java file. -/
  | failed (failure : Failure)
  | taken (taken : Taken)
  /-- The operating system refused to do something at a path. -/
  | fault (fault : Fault) (path : Path)
deriving Repr

/-- A step of writing: what it has done to the tree stays also when it fails. -/
abbrev Writing := ExceptT WriteFailure (StateM FileTree)

namespace Writing

/-- Fail because the operating system refuses something at a path. -/
def refuse {α : Type} (fault : Fault) (path : Path) : Writing α :=
  throw (.fault fault path)

/-- Go on with what the operating system answers about a path, or fail. -/
def ofExcept {α : Type} (path : Path) : Except Fault α → Writing α
  | .ok a => pure a
  | .error fault => refuse fault path

/-- The place that a path leads to. -/
def locate (path : Path) : Writing Place := do
  ofExcept path ((← get).locatePath path)

/-- Make one directory. -/
def tryMakeDirectory (root : FileTree) (path : Path) : Except Fault FileTree := do
  let place ← root.locatePath path
  match root.get? place with
  | some _ => throw .occupied
  | none => return root.put place .empty

/-- Make a directory, and all that are missing on the way.  The steps come in
reverse.  The directory itself may be allowed to exist already; those on the way
always are. -/
def makeDirectories (mayExist : Bool) (anchor : Anchor) : List Text → Writing Unit
  | [] => if mayExist then pure () else refuse .occupied ⟨anchor, []⟩
  | step :: above => do
    let path : Path := ⟨anchor, (step :: above).reverse⟩
    let settle (fault : Fault) : Writing Unit := do
      if mayExist && ((← get).find? path).any FileTree.isDirectory then pure () else refuse fault path
    match tryMakeDirectory (← get) path with
    | .ok root => set root
    | .error .missing => do
      makeDirectories true anchor above
      match tryMakeDirectory (← get) path with
      | .ok root => set root
      | .error fault => settle fault
    | .error fault => settle fault

/-- Make the directory that a path is in. -/
def makeParent (path : Path) : Writing Unit :=
  makeDirectories true path.anchor path.parent.steps.reverse

/-- A name that no entry has: it is longer than all of them. -/
def temporaryName (entries : List (Text × FileTree)) (name : Text) : Text :=
  let longest := (entries.map (·.1.length)).foldl max 0
  let filling : Text := List.replicate (longest + 1) (.char '_')
  "." ++ name ++ "." ++ filling ++ ".tmp"

/-- How many bytes longer the name of a temporary file is taken to be than that
of the file it is for. -/
def temporaryBytes : Nat := 14

/-- The place of a temporary file for a path. -/
def temporaryPlace (path : Path) : Writing Place := do
  match path.fault? temporaryBytes with
  | some fault => refuse fault path
  | none =>
    let directory ← locate path.parent
    if FileTree.nameLimit < path.name.byteCount + temporaryBytes then refuse .tooLong path
    let siblings := (((← get).get? directory).map FileTree.entries).getD []
    return directory ++ [temporaryName siblings path.name]

/-- A text as files hold it. -/
def encode (path : Path) (text : Text) : Writing String :=
  match text.toString? with
  | some text => pure text
  | none => refuse .unencodable path

/-- Whether a path says no name of its own at the end. -/
def isNameless (path : Path) : Bool :=
  path.name = [] || path.name = ".."

/-- Move a file to a path, in place of the file that may be there. -/
def tryRename (root : FileTree) (source : Place) (path : Path) : Except Fault FileTree := do
  if isNameless path then throw .busy
  let target ← root.locatePath path
  match root.get? source, root.get? target with
  | none, _ => throw .missing
  | some _, some (.directory _) => throw .isADirectory
  | some tree, _ => return (root.remove source).put target tree

/-- Write a text to a temporary file and move that to a path.  The file is made before
the text is looked at, and removed again if the text or the move is refused. -/
def replaceBy (temporary : Place) (path : Path) (text : Text) : Writing Unit := do
  modify (·.put temporary (.file ""))
  try
    let text ← encode path text
    modify (·.put temporary (.file text))
    match tryRename (← get) temporary path with
    | .ok root => set root
    | .error fault => refuse fault path
  catch failure =>
    modify (·.remove temporary)
    throw failure

/-- Write a text by way of a temporary file. -/
def replaceFile (path : Path) (text : Text) : Writing Unit := do
  makeParent path
  let temporary ← temporaryPlace path
  replaceBy temporary path text

/-- Write a text directly: the file is emptied before the text is looked at. -/
def overwriteFile (path : Path) (text : Text) : Writing Unit := do
  makeParent path
  let target ← locate path
  match (← get).get? target with
  | some (.directory _) => refuse .isADirectory path
  | _ =>
    modify (·.put target (.file ""))
    let text ← encode path text
    modify (·.put target (.file text))

/-- Check a text that is to be written to a path.  Only Java is checked. -/
def check (language : Text) (path : Path) (text : Text) : Writing Unit :=
  if language = "java" then
    match Java.defect? text with
    | some cause => throw (.failed (cause.atPath path.text))
    | none => pure ()
  else pure ()

/-- Write one file, after a check if there is to be one. -/
def write (path : Path) (text language : Text) (validate : Bool) : Writing Unit := do
  if validate then check language path text
  replaceFile path text

/-- Write one file where there is none yet. -/
def writeIfAbsent (path : Path) (text language : Text) (validate : Bool) : Writing Unit := do
  if ← ofExcept path ((← get).hasPath path) then throw (.taken (.file path))
  write path text language validate

/-- Check all texts of a batch. -/
def checkAll (language : Text) : List (Path × Text) → Writing Unit
  | [] => pure ()
  | (path, text) :: rest => do
    check language path text
    checkAll language rest

/-- The paths among some that lead to something already. -/
def takenAmong : List Path → Writing (List Path)
  | [] => pure []
  | path :: rest => do
    let isTaken ← ofExcept path ((← get).hasPath path)
    let others ← takenAmong rest
    return if isTaken then path :: others else others

/-- Write all files of a batch, one after the other. -/
def writeEach (atomic : Bool) : List (Path × Text) → Writing Unit
  | [] => pure ()
  | (path, text) :: rest => do
    if atomic then replaceFile path text else overwriteFile path text
    writeEach atomic rest

/-- Whether a mode protects existing files. -/
def protects : OutputMode → Bool
  | .errorIfExists => true
  | _ => false

/-- Write a batch of files below a directory.  The answer is the paths written,
in the order of the batch. -/
def writeBatch (directory : Path) (files : List Java.File) (language : Text) (mode : OutputMode)
    (atomic : Bool) : Writing (List Path) := do
  let targets := files.map fun file => (directory.join (.ofText file.path), file.text)
  checkAll language targets
  if protects mode then
    let existing ← takenAmong (targets.map (·.1))
    if !existing.isEmpty then throw (.taken (.targets existing))
  writeEach atomic targets
  pure (targets.map (·.1))

end Writing
end ApiBindings
