import ApiBindings.Failure
/-!
# Java spellings of types

How builtin types and containers are written.  Type arguments are always
boxed; the elements of an array are not.  The name of a type that the settings
give may be any value: it is written as running text, and it can be boxed
unless it is a list or an object.
-/

namespace ApiBindings
namespace Java

/-- The builtin types of the description with a spelling of their own. -/
def primitives : List (Text × Text) :=
  [("int", "int"), ("float", "double"), ("boolean", "boolean"), ("string", "String"),
   ("void", "void"), ("path", "Path"), ("Buffer", "byte[]"), ("URL", "String"),
   ("RegExp", "Pattern"), ("any", "Object"), ("Serializable", "Object"),
   ("EvaluationArgument", "Object"), ("Readable", "InputStream")]

/-- The classes that stand for the types without objects. -/
def boxes : List (Text × Text) :=
  [("int", "Integer"), ("double", "Double"), ("boolean", "Boolean"), ("void", "Void")]

/-- The spelling of a named type; any other name is that of a declared type. -/
def primitive (name : Text) : Text :=
  (Text.find? name primitives).getD name

/-- A spelling as it stands in a type argument. -/
def boxText (type : Text) : Text :=
  (Text.find? type boxes).getD type

/-- The name of a type as it stands in a type argument. -/
def box : Json → Except Failure Json
  | .str type => .ok (.str (boxText type))
  | name => if name.isKey then .ok name else .error .wrongKind

/-- A container of types, each of them boxed. -/
def containerOf (name : Text) (args : List Json) : Except Failure Text := do
  let boxed ← args.mapM box
  return name ++ "<" ++ Text.join ", " (boxed.map Json.display) ++ ">"

def listOf (element : Json) : Except Failure Text := containerOf "List" [element]

def arrayOf (element : Json) : Text := element.display ++ "[]"

def mapOf (key value : Json) : Except Failure Text := containerOf "Map" [key, value]

def consumerOf (arg : Json) : Except Failure Text := containerOf "Consumer" [arg]

def predicateOf (arg : Json) : Except Failure Text := containerOf "Predicate" [arg]

def optionalOf (type : Json) : Except Failure Text := containerOf "Optional" [type]

/-- The type without objects for which the placeholder is a number. -/
def intType : Text := "int"

/-- The argument that stands for an omitted parameter of a type. -/
def placeholderFor (type : Json) : Text :=
  if type.isText intType then "0" else "null"

/-- The type of what has no other type. -/
def objectType : Text := "Object"

/-- The type of what returns nothing. -/
def voidType : Text := "void"

end Java
end ApiBindings
