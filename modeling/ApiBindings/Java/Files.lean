import ApiBindings.Java.Layout
import ApiBindings.Settings
/-!
# Java files

Every interface and every global class and enum is a file of its own, the
latter two in a package below that of the interfaces.  A file imports what the
type spellings in it mention.
-/

namespace ApiBindings
namespace Java

/-- A generated file: its path below the output directory and its text. -/
structure File where
  path : Text
  text : Text
deriving DecidableEq, Repr

/-- The library types that have to be imported by name. -/
def libraryImports : List (Text × Text) :=
  [("InputStream", "java.io.InputStream"), ("Path", "java.nio.file.Path"),
   ("Consumer", "java.util.function.Consumer"), ("Predicate", "java.util.function.Predicate"),
   ("Pattern", "java.util.regex.Pattern")]

/-- The package that is always imported. -/
def javaUtil : Text := "java.util.*"

/-- The name of the package of classes and enums below that of the interfaces. -/
def optionsPackage : Text := "options"

/-- The imports of library types among some identifiers, in alphabetical order. -/
def libraryImportsFor (tokens : List Text) : List Text :=
  let mentioned := libraryImports.filterMap fun (name, path) =>
    if tokens.contains name then some path else none
  (javaUtil :: mentioned).mergeSort Text.le

/-- The type spellings of a class. -/
def classTypes (c : Surface.Class) : List Json :=
  c.fields.map (·.type) ++ c.builders.flatMap fun b => b.params.map (·.type)

/-- The type spellings of a method, or the whole declaration if it is written by
hand. -/
def methodTypes (method : Surface.Overload) : List Json :=
  if method.signature.isNull then method.returnType :: method.params.map (·.type)
  else [method.signature]

/-- The type spellings of an interface with its nested classes. -/
def interfaceTypes (i : Surface.Interface) : List Json :=
  i.listeners.map (fun listener => .str listener.handlerType) ++ i.methods.flatMap methodTypes ++
    i.nestedClasses.flatMap classTypes

/-- The identifiers in some spellings, all of which have to be texts. -/
def tokens : List Json → Except Failure (List Text)
  | [] => .ok []
  | .str text :: rest => do
    let others ← tokens rest
    return Text.identifiers text ++ others
  | _ :: _ => .error .wrongKind

/-- What stands above the declaration of a file. -/
def header (settings : Settings) (package : Text) (imports : List Text) (banner : Text) : Text :=
  (if settings.licenseHeader.isTruthy then
    line (Text.trim settings.licenseHeader.display) ++ line [] else []) ++
  (if banner.isEmpty then [] else line banner) ++
  line ("package " ++ package ++ ";") ++ line [] ++
  (imports.flatMap fun path => line ("import " ++ path ++ ";")) ++
  (if imports.isEmpty then [] else line [])

/-- The package of the interfaces. -/
def interfacePackage (settings : Settings) : Text :=
  settings.javaPackage.display

/-- The package of the global classes and enums. -/
def typePackage (settings : Settings) : Text :=
  interfacePackage settings ++ "." ++ optionsPackage

/-- The imports of a file whose types are declared in two packages: the other
package if one of its names is mentioned, then the library. -/
def importsFor (package : Text) (names mentioned : List Text) : List Text :=
  (if mentioned.any names.contains then [package ++ ".*"] else []) ++ libraryImportsFor mentioned

/-- The file of an interface. -/
def interfaceFile (settings : Settings) (banner : Text) (typeNames : List Text)
    (i : Surface.Interface) : Except Failure File := do
  let body ← interfaceText i
  let mentioned ← tokens (interfaceTypes i)
  let imports := importsFor (typePackage settings) typeNames mentioned
  return { path := i.name ++ ".java"
           text := header settings (interfacePackage settings) imports banner ++ body }

/-- The file of a global class. -/
def classFile (settings : Settings) (banner : Text) (interfaceNames : List Text)
    (c : Surface.Class) : Except Failure File := do
  let mentioned ← tokens (classTypes c)
  let imports := importsFor (interfacePackage settings) interfaceNames mentioned
  let body ← classText c
  return { path := optionsPackage ++ "/" ++ c.name.display ++ ".java"
           text := header settings (typePackage settings) imports banner ++ body }

/-- The file of an enum. -/
def enumFile (settings : Settings) (banner : Text) (e : EnumType) : File where
  path := optionsPackage ++ "/" ++ e.name ++ ".java"
  text := header settings (typePackage settings) [] banner ++ enumText e

/-- One file for each declaration. -/
def eachFile {α : Type} (file : α → Except Failure File) : List α → Except Failure (List File)
  | [] => .ok []
  | a :: rest => do
    let first ← file a
    let others ← eachFile file rest
    return first :: others

/-- Put a file into a batch: its text replaces that of a file of the same path. -/
def putFile (file : File) : List File → List File
  | [] => [file]
  | f :: rest => if f.path = file.path then file :: rest else f :: putFile file rest

/-- The files of a surface, before those of the same path are merged. -/
def unitFiles (settings : Settings) (surface : Surface) : Except Failure (List File) := do
  let interfaceNames := surface.interfaces.map (·.name)
  if surface.classes.any fun c => !c.name.isKey then throw .wrongKind
  let typeNames := surface.classes.filterMap (·.name.asText?) ++ surface.enums.map (·.name)
  let interfaces ← eachFile (interfaceFile settings surface.banner typeNames) surface.interfaces
  let classes ← eachFile (classFile settings surface.banner interfaceNames) surface.classes
  return interfaces ++ classes ++ surface.enums.map (enumFile settings surface.banner)

/-- The files of a surface.  Of two declarations for one path the later one
gives the text and the earlier one the place. -/
def files (settings : Settings) (surface : Surface) : Except Failure (List File) := do
  let files ← unitFiles settings surface
  return files.foldl (fun batch file => putFile file batch) []

end Java
end ApiBindings
