import ApiBindings.Schema.Reader
import ApiBindings.Schema.Restriction
import ApiBindings.Surface.Declaration
import ApiBindings.Writing
/-!
# Generation

From a description and settings to the files of a target language.  Nothing is
written unless all files could be generated.
-/

namespace ApiBindings
namespace Generation

/-- The name of the command. -/
def commandName : Text := "api_schema_to_code"

/-- The version that the banner shows. -/
def version : Text := "1.0.0"

/-- Refuse a language that there is no generator for. -/
def checkLanguage (language : Text) : Except Failure Unit :=
  if language = "java" then .ok () else .error ((Cause.unknownLanguage language).atPath [])

/-- How the command was called, unless that could not be found out. -/
abbrev Invocation := Except Fault Text

/-- The comment at the top of every file, which shows how the command was called. -/
def banner (settings : Settings) (commandLine : Invocation) : Except Failure Text :=
  if settings.addGenerationComment.isTruthy then
    match commandLine with
    | .ok commandLine =>
      .ok ("// Generated by " ++ commandName ++ " v" ++ version ++ " : " ++ commandLine)
    | .error fault => .error (.refused fault)
  else .ok []

/-- The surface of a description. -/
def surface (settings : Settings) (language : Text) (commandLine : Invocation) (schema : Json) :
    Except Failure Surface := do
  checkLanguage language
  let (schema, _) ← Availability.restrict language schema
  let interfaces ← Schema.read schema
  let surface ← Surface.declare settings interfaces
  return { surface with banner := ← banner settings commandLine }

/-- The files for a description. -/
def files (settings : Settings) (language : Text) (commandLine : Invocation) (schema : Json) :
    Except Failure (List Java.File) := do
  let surface ← surface settings language commandLine schema
  Java.files settings surface

/-- Generate the files for a description and write them below a directory. -/
def write (settings : Settings) (language : Text) (commandLine : Invocation) (schema : Json)
    (directory : Path) : Writing (List Path) := do
  match files settings language commandLine schema with
  | .error failure => throw (.failed failure)
  | .ok files =>
    match settings.output with
    | some (.options mode atomic) =>
      Writing.writeBatch directory files language mode atomic.isTruthy
    | _ => throw (.failed .noSuchProperty)

end Generation
end ApiBindings
