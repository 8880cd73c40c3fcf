import ApiBindings.CommandLine.Arguments
import ApiBindings.Generation
import ApiBindings.Json.Reader
/-!
# Running the command

A run reads the description and the settings, generates all files and only
then writes them.  Its reply says how it ended.
-/

namespace ApiBindings
namespace CommandLine

/-- How a run ends. -/
inductive Reply where
  /-- The arguments are not used as they should be. -/
  | usage
  | success (message : Text)
  /-- The run reports what is wrong. -/
  | reported (message : Text)
  /-- The run breaks off at a file that does not hold JSON. -/
  | unreadable (cause : Json.Unreadable)
  /-- The run breaks off at a value of the wrong kind. -/
  | failed (failure : Failure)
  /-- The run breaks off at something the operating system refuses. -/
  | refused (fault : Fault)
deriving Repr

/-- The reply to a failure: what has been diagnosed is reported. -/
def Reply.ofFailure : Failure → Reply
  | .diagnosed diagnosis => .reported diagnosis.message
  | .refused fault => .refused fault
  | failure => .failed failure

/-- The reply when files could not be written: a place that is taken is
reported, be it by a file or where a directory should be. -/
def Reply.ofWriteFailure : WriteFailure → Reply
  | .failed failure => .ofFailure failure
  | .taken taken => .reported taken.message
  | .fault .occupied path => .reported ("[Errno 17] File exists: " ++ Literal.text path.text)
  | .fault fault _ => .refused fault

/-- What the arguments ask for, with all paths made absolute. -/
structure Request where
  options : Options
  config : Option Path
  schema : Path
  outputDirectory : Path
deriving DecidableEq, Repr

/-- The path that an argument means at a place.  Its steps are looked at one
after the other. -/
def resolvePath (here : Place) (arg : Text) : Except Reply Path :=
  let path := Path.ofText arg
  match path.steps.findSome? Path.nameFault? with
  | some fault => .error (.refused fault)
  | none => .ok (path.resolveFrom here)

/-- Whether the settings that a request names exist. -/
def configPath (here : Place) (root : FileTree) (options : Options) : Except Reply (Option Path) :=
  match options.config with
  | none => .ok none
  | some arg => do
    let path ← resolvePath here arg
    if (root.find? path).isSome then return some path else throw .usage

/-- Refuse a language that there is no generator for. -/
def checkLanguage (options : Options) : Except Reply Unit :=
  if options.language = "java" then .ok () else .error .usage

/-- The path of a description, which has to be a file. -/
def schemaPath (here : Place) (root : FileTree) (arg : Text) : Except Reply Path := do
  let path ← resolvePath here arg
  match root.find? path with
  | some (.file _) => return path
  | _ => throw .usage

/-- The path of the output directory, which must not be a file. -/
def outputPath (here : Place) (root : FileTree) (arg : Text) : Except Reply Path := do
  let path ← resolvePath here arg
  match root.find? path with
  | some (.file _) => throw .usage
  | _ => return path

/-- The request that arguments make at a place, if it can be carried out. -/
def Request.of (here : Place) (root : FileTree) (arguments : Arguments) : Except Reply Request := do
  let options := arguments.options
  if options.languageFirst then checkLanguage options
  let config ← configPath here root options
  checkLanguage options
  match arguments.paths with
  | [] => throw .usage
  | schema :: rest => do
    let schema ← schemaPath here root schema
    match rest with
    | [] => throw .usage
    | outputDirectory :: others => do
      let outputDirectory ← outputPath here root outputDirectory
      if others.isEmpty then return { options, config, schema, outputDirectory }
      else throw .usage

/-- A path as the banner shows it: by its name alone if there is something. -/
def shownPath (root : FileTree) (path : Path) : Except Fault Text := do
  return if ← root.hasPath path then path.name else path.text

/-- The words of the command line that name the settings. -/
def configWords (root : FileTree) : Option Path → Except Fault (List Text)
  | some config => do
    let shown ← shownPath root config
    return ["--config", shown]
  | none => .ok []

/-- The command line that makes a request, with the options that differ from
their defaults. -/
def commandLine (request : Request) (root : FileTree) : Except Fault Text := do
  let config ← configWords root request.config
  let schema ← shownPath root request.schema
  let outputDirectory ← shownPath root request.outputDirectory
  let force : List Text := if request.options.force then ["--force"] else []
  let verbose : List Text := if request.options.verbose then ["--verbose"] else []
  return Text.join " "
    ([Generation.commandName, schema, outputDirectory] ++ config ++ force ++ verbose)

/-- The JSON value that a file holds. -/
def readJson (root : FileTree) (path : Path) : Except Reply Json :=
  match root.find? path with
  | some (.file text) =>
    match Json.ofText text with
    | .ok value => .ok value
    | .error cause => .error (.unreadable cause)
  | some (.directory _) => .error (.refused .isADirectory)
  | none => .error (.refused .missing)

/-- A result, or the reply to the failure. -/
def orReply {α : Type} : Except Failure α → Except Reply α
  | .ok a => .ok a
  | .error failure => .error (.ofFailure failure)

/-- Read the settings of a request. -/
def readSettings (request : Request) (root : FileTree) : Except Reply Settings := do
  let settings ← match request.config with
    | some config => do orReply (Settings.ofJson (← readJson root config))
    | none => .ok Settings.defaults
  if request.options.force then orReply settings.withForce else return settings

/-- What a run works on. -/
structure Job where
  settings : Settings
  language : Text
  commandLine : Generation.Invocation
  schema : Json
  directory : Path

/-- Read the arguments and the files that they name. -/
def job (here : Place) (args : List Text) (root : FileTree) : Except Reply Job :=
  match Arguments.read? args with
  | none => .error .usage
  | some arguments => do
    let request ← Request.of here root arguments
    let schema ← readJson root request.schema
    let settings ← readSettings request root
    return {
      settings, schema
      language := request.options.language
      commandLine := commandLine request root
      directory := request.outputDirectory }

/-- Run the command at a place with some arguments. -/
def run (here : Place) (args : List Text) (root : FileTree) : Reply × FileTree :=
  match job here args root with
  | .error reply => (reply, root)
  | .ok job =>
    let writing :=
      Generation.write job.settings job.language job.commandLine job.schema job.directory
    match writing.run.run root with
    | (.ok paths, root) =>
      (.success ("Generated " ++ Text.ofInt paths.length ++ " file(s) in " ++ job.directory.text), root)
    | (.error failure, root) => (.ofWriteFailure failure, root)

end CommandLine
end ApiBindings
