import ApiBindings.CommandLine.Run
/-!
# The command

Takes a picture of the files that a run can meet, lets the run work on it and
carries over to the disk what the run has changed.  Everything that is decided
is decided by `CommandLine.run`.
-/

namespace ApiBindings
namespace CommandLine

/-- What is on the disk at a path. -/
def probe (path : Path) : IO (Option FileTree) := do
  match path.fault? 0, path.text.toString? with
  | none, some name =>
    try
      return some (.file (← IO.FS.readFile name))
    catch
      | .noFileOrDirectory .. => return none
      | .inappropriateType _ code _ => return if code = 21 then some .empty else none
      | error => throw error
  | _, _ => return none

/-- A picture with what is on the way to a path and at it. -/
def withPath (root : FileTree) (path : Path) : IO FileTree :=
  (List.range path.steps.length).foldlM (fun root count => do
    let path : Path := { path with steps := path.steps.take (count + 1) }
    match root.get? path.steps, ← probe path with
    | none, some tree => return root.put path.steps tree
    | _, _ => return root) root

/-- A picture with everything that a run with these arguments can meet. -/
def picture (here : Place) (args : List Text) : IO FileTree := do
  match Arguments.read? args with
  | none => return .empty
  | some arguments =>
    let named := arguments.options.config.toList ++ arguments.paths
    let root ← (named.map fun arg => (Path.ofText arg).resolveFrom here).foldlM withPath .empty
    match job here args root with
    | .error _ => return root
    | .ok job =>
      match Generation.files job.settings job.language job.commandLine job.schema with
      | .error _ => return root
      | .ok files => (files.map fun file => job.directory.join (.ofText file.path)).foldlM withPath root

/-- Carry the changes of a picture over to the disk. -/
partial def carryOver (path : Path) (before : Option FileTree) (after : FileTree) : IO Unit := do
  match before, after with
  | some (.file old), .file new =>
    if old ≠ new then replace new
  | _, .file new => replace new
  | before, .directory entries =>
    if before.isNone then IO.FS.createDir path.text.shown
    for (name, tree) in entries do
      let known := (before.map FileTree.entries).bind (Text.find? name)
      carryOver { path with steps := path.steps ++ [name] } known tree
where
  /-- Write a file by way of a temporary one beside it. -/
  replace (text : String) : IO Unit := do
    let temporary := path.parent.text.shown ++ "/." ++ path.name.shown ++ ".tmp"
    IO.FS.writeFile temporary text
    IO.FS.rename temporary path.text.shown

/-- Say how a run ended, and give the exit code. -/
def report : Reply → IO UInt32
  | .success message => do
    IO.println message.shown
    return 0
  | .usage => do
    IO.eprintln ("Usage: " ++ Generation.commandName.shown ++ " [OPTIONS] SCHEMA OUTPUT_DIR")
    return 2
  | .reported message => do
    IO.eprintln ("Error: " ++ message.shown)
    return 1
  | .unreadable .malformed => do
    IO.eprintln "Error: an input file is not JSON"
    return 1
  | .unreadable .tooManyDigits => do
    IO.eprintln "Error: an integer in an input file has too many digits"
    return 1
  | .failed _ => do
    IO.eprintln "Error: a value of the wrong kind was given"
    return 1
  | .refused _ => do
    IO.eprintln "Error: a file or directory is in the way"
    return 1

end CommandLine
end ApiBindings

open ApiBindings in
/-- Run the command in the current directory. -/
def main (args : List String) : IO UInt32 := do
  let here := (Path.ofText (← IO.currentDir).toString).steps
  let args := args.map Text.ofString
  let root ← CommandLine.picture here args
  let (reply, after) := CommandLine.run here args root
  CommandLine.carryOver ⟨.root, []⟩ (some root) after
  CommandLine.report reply
