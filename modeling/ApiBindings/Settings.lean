import ApiBindings.Failure
import ApiBindings.Text.Naming
import ApiBindings.Text.Replace
/-!
# Settings

The tables that steer a run: class names for records, types that replace the
derived ones, hand-written signatures, and which interfaces keep a supertype.
A settings object replaces a table as a whole.  Only replaced types and the
output options are checked when they are read; every other value is kept as
given, and a value of the wrong kind shows when it is used.

A few keys are reserved: they name no single setting but the settings object
itself.  One of them replaces all settings by those of an object, unchecked,
and with it a setting can be missing.
-/

namespace ApiBindings

/-- The type to use at a path instead of the derived one. -/
structure Override where
  /-- The canonical expression that the type at the path must have. -/
  source : Json
  target : Json
  kind : Json
deriving Repr

/-- The replaced types by path, or a value that was not read as such. -/
inductive Overrides where
  | table (entries : List (Text × Override))
  | other (value : Json)
deriving Repr

/-- What to do when an output file already exists. -/
inductive OutputMode where
  | errorIfExists
  | force
  /-- A value that is not even a text: it does not protect existing files. -/
  | other (value : Json)
deriving Repr

/-- How files are written, or a value that was not read as such. -/
inductive Output where
  | options (mode : OutputMode) (atomic : Json)
  | other (value : Json)
deriving Repr

/-- The settings of a run.  The tables and the output options can be missing,
which shows when they are used. -/
structure Settings where
  customTypeNames : Option Json
  overrides : Option Overrides
  customSignatures : Option Json
  allowedBaseInterfaces : Option Json
  autoCloseableInterfaces : Option Json
  javaPackage : Json
  addGenerationComment : Json
  licenseHeader : Json
  output : Option Output
  /-- Whether the settings can be given as an object again. -/
  isExportable : Bool
deriving Repr

namespace OutputMode

/-- The mode that a text names. -/
def ofName? (name : Text) : Option OutputMode :=
  if name = "error" then some .errorIfExists
  else if name = "force" then some .force
  else none

/-- The mode that a value stands for; only texts are checked. -/
def ofJson : Json → Except Failure OutputMode
  | .str name =>
    match ofName? name with
    | some mode => .ok mode
    | none => .error (.unknownMode name)
  | value => .ok (.other value)

def toJson : OutputMode → Except Failure Json
  | .errorIfExists => .ok (.str "error")
  | .force => .ok (.str "force")
  | .other _ => .error .noSuchProperty

end OutputMode

namespace Override

/-- Read the replacement for the type at a path. -/
def ofJson (path : Text) (value : Json) : Except Failure Override :=
  match value.get? "from", value.get? "to" with
  | some source, some target =>
    .ok { source, target, kind := (value.get? "kind").getD (.str "class") }
  | _, _ => .error ((Cause.incompleteOverride value).atPath path)

def toJson (o : Override) : Json :=
  .obj [("from", o.source), ("to", o.target), ("kind", o.kind)]

/-- Read the replacements of a table in order. -/
def ofEntries : List (Text × Json) → Except Failure (List (Text × Override))
  | [] => .ok []
  | (path, value) :: rest => do
    let first ← ofJson path value
    let others ← ofEntries rest
    return (path, first) :: others

end Override

namespace Output

/-- The output options of an object, each with its default. -/
def ofEntries (entries : List (Text × Json)) : Except Failure Output := do
  let mode ← match Text.find? "mode" entries with
    | some value => OutputMode.ofJson value
    | none => .ok .errorIfExists
  return .options mode ((Text.find? "atomic_write" entries).getD (.bool true))

def toJson : Output → Except Failure Json
  | .options mode atomic => do
    let mode ← mode.toJson
    return .obj [("mode", mode), ("atomic_write", atomic)]
  | .other _ => .error .noSuchProperty

end Output

namespace Settings

/-- The settings that hold when nothing is given. -/
def defaults : Settings where
  customTypeNames := some <| .obj
    [("cookies", .str "Cookie"), ("files", .str "FilePayload"), ("values", .str "SelectOption")]
  overrides := some (.table [])
  customSignatures := some <| .obj
    [("Page.setViewportSize", .arr [.str "void setViewportSize(int width, int height);"]),
     ("BrowserContext.cookies", .arr
       [.str "default List<Cookie> cookies() \x7b return cookies((List<String>) null); \x7d",
        .str "default List<Cookie> cookies(String url) \x7b return cookies(Arrays.asList(url)); \x7d",
        .str "List<Cookie> cookies(List<String> urls);"]),
     ("BrowserContext.addCookies", .arr [.str "void addCookies(List<Cookie> cookies);"])]
  allowedBaseInterfaces := some <| .arr [.str "Browser", .str "JSHandle", .str "BrowserContext"]
  autoCloseableInterfaces :=
    some <| .arr [.str "Playwright", .str "Browser", .str "BrowserContext", .str "Page"]
  javaPackage := .str "com.microsoft.playwright"
  addGenerationComment := .bool true
  licenseHeader := .str ""
  output := some (.options .errorIfExists (.bool true))
  isExportable := true

/-- Replaced types that are not read: nothing can be looked up among them, unless
there are none. -/
def uncheckedOverrides : Json → Overrides
  | .obj [] => .table []
  | value => .other value

/-- The settings that an object holds, none of them checked. -/
def unchecked (entries : List (Text × Json)) : Settings where
  customTypeNames := Text.find? "custom_type_names" entries
  overrides := (Text.find? "type_overrides" entries).map uncheckedOverrides
  customSignatures := Text.find? "custom_signatures" entries
  allowedBaseInterfaces := Text.find? "allowed_base_interfaces" entries
  autoCloseableInterfaces := Text.find? "auto_closeable_interfaces" entries
  javaPackage := (Text.find? "java_package" entries).getD defaults.javaPackage
  addGenerationComment := (Text.find? "add_generation_comment" entries).getD defaults.addGenerationComment
  licenseHeader := (Text.find? "license_header" entries).getD defaults.licenseHeader
  output := (Text.find? "output" entries).map .other
  isExportable := (Text.find? "to_dict" entries).isNone

/-- Put one given value in its place.  A name that is no setting is ignored,
and a missing setting stays missing unless its value is checked here. -/
def set (settings : Settings) (key : Text) (value : Json) : Except Failure Settings :=
  let replaced (old : Option Json) : Option Json := old.map fun _ => value
  match key.toString? with
  | some "custom_type_names" =>
    .ok { settings with customTypeNames := replaced settings.customTypeNames }
  | some "type_overrides" =>
    match value with
    | .obj entries => do
      let entries ← Override.ofEntries entries
      return { settings with overrides := some (.table entries) }
    | _ => .ok { settings with overrides := settings.overrides.map fun _ => .other value }
  | some "custom_signatures" =>
    .ok { settings with customSignatures := replaced settings.customSignatures }
  | some "allowed_base_interfaces" =>
    .ok { settings with allowedBaseInterfaces := replaced settings.allowedBaseInterfaces }
  | some "auto_closeable_interfaces" =>
    .ok { settings with autoCloseableInterfaces := replaced settings.autoCloseableInterfaces }
  | some "java_package" => .ok { settings with javaPackage := value }
  | some "add_generation_comment" => .ok { settings with addGenerationComment := value }
  | some "license_header" => .ok { settings with licenseHeader := value }
  | some "output" =>
    match value with
    | .obj entries => do
      let output ← Output.ofEntries entries
      return { settings with output := some output }
    | _ => .ok { settings with output := settings.output.map fun _ => .other value }
  | some "__dict__" =>
    match value with
    | .obj entries => .ok (unchecked entries)
    | _ => .error .wrongKind
  | some "__class__" => .error .wrongKind
  | some "__weakref__" => .error .noSuchProperty
  | some "to_dict" => .ok { settings with isExportable := false }
  | _ => .ok settings

/-- Put given values in their places, in order. -/
def setAll (settings : Settings) : List (Text × Json) → Except Failure Settings
  | [] => .ok settings
  | (key, value) :: rest => do
    let settings ← settings.set key value
    settings.setAll rest

/-- The defaults with what an object gives in their place. -/
def ofJson : Json → Except Failure Settings
  | .obj entries => defaults.setAll entries
  | _ => .error .noSuchProperty

/-- A setting that is used, so that it must not be missing. -/
def required {α : Type} : Option α → Except Failure α
  | some value => .ok value
  | none => .error .noSuchProperty

/-- The object that gives these settings. -/
def toJson (settings : Settings) : Except Failure Json := do
  if !settings.isExportable then throw .wrongKind
  let overrides ← match ← required settings.overrides with
    | .table entries => .ok (Json.obj (entries.map fun (path, o) => (path, o.toJson)))
    | .other _ => .error .noSuchProperty
  let output ← (← required settings.output).toJson
  return .obj
    [("custom_type_names", ← required settings.customTypeNames),
     ("type_overrides", overrides),
     ("custom_signatures", ← required settings.customSignatures),
     ("allowed_base_interfaces", ← required settings.allowedBaseInterfaces),
     ("auto_closeable_interfaces", ← required settings.autoCloseableInterfaces),
     ("java_package", settings.javaPackage),
     ("add_generation_comment", settings.addGenerationComment),
     ("license_header", settings.licenseHeader),
     ("output", output)]

/-- The settings with existing files to be replaced. -/
def withForce (settings : Settings) : Except Failure Settings :=
  match settings.output with
  | some (.options _ atomic) => .ok { settings with output := some (.options .force atomic) }
  | _ => .error .noSuchProperty

/-- Look a name up in a table that was kept as given. -/
def lookup (table : Option Json) (name : Text) : Except Failure (Option Json) :=
  match table with
  | some (.obj entries) => .ok (Text.find? name entries)
  | _ => .error .noSuchProperty

/-- The replacement for the type at a path. -/
def override? (settings : Settings) (path : Text) : Except Failure (Option Override) :=
  match settings.overrides with
  | some (.table entries) => .ok (Text.find? path entries)
  | some (.other (.obj entries)) =>
    match Text.find? path entries with
    | none | some .null => .ok none
    | some _ => .error .noSuchProperty
  | _ => .error .noSuchProperty

/-- The class name for a record that is the type of something of this name. -/
def className (settings : Settings) (name : Text) : Except Failure Json := do
  let given ← lookup settings.customTypeNames name
  return given.getD (.str (Text.capitalizeFirst name))

/-- What the hand-written signatures say of a member. -/
inductive Signatures where
  /-- Nothing: the overloads are derived. -/
  | derived
  /-- The member is left out. -/
  | suppressed
  | written (texts : List Json)
  /-- A value that is no collection of signatures. -/
  | malformed
deriving Repr

/-- The signatures that a value holds: the items of a list, the keys of an
object, the characters of a text. -/
def Signatures.ofJson (value : Json) : Signatures :=
  if value.isNull then .derived
  else if !value.isTruthy then .suppressed
  else match value with
    | .arr items => .written items
    | .obj entries => .written (entries.map fun entry => .str entry.1)
    | .str text => .written (text.map fun c => .str [c])
    | _ => .malformed

/-- The hand-written signatures for the member at a path. -/
def signatures (settings : Settings) (path : Text) : Except Failure Signatures := do
  match ← lookup settings.customSignatures path with
  | none => return .derived
  | some value => return .ofJson value

/-- Whether a collection holds a value: as an item of a list, a key of an object
or a part of a text. -/
def holds (collection value : Json) : Except Failure Bool :=
  match collection, value with
  | .arr items, _ => .ok (items.any value.same)
  | .str text, .str part => .ok (Text.holdsWord part text)
  | .obj entries, .str key => .ok (Text.find? key entries).isSome
  | .obj _, _ => if value.isKey then .ok false else .error .wrongKind
  | _, _ => .error .wrongKind

/-- Whether an interface may keep this declared supertype. -/
def keepsSupertype (settings : Settings) (supertype : Json) : Except Failure Bool := do
  holds (← required settings.allowedBaseInterfaces) supertype

/-- Whether the interface of this name closes its resources. -/
def isAutoCloseable (settings : Settings) (name : Text) : Except Failure Bool := do
  holds (← required settings.autoCloseableInterfaces) (.str name)

end Settings
end ApiBindings
