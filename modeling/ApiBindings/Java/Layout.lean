import ApiBindings.Failure
import ApiBindings.Java.Comment
import ApiBindings.Java.Spelling
import ApiBindings.Surface.Basic
/-!
# The layout of Java declarations

Interfaces, classes and enums as text.  Every line ends with a newline, a
description stands directly above what it describes, and a class inside an
interface is indented by two.
-/

namespace ApiBindings
namespace Java

/-- A line. -/
def line (text : Text) : Text := text ++ "\n"

/-- A documentation comment as lines of its own; none if it is empty. -/
def docLines (doc : Text) : Text :=
  if doc.isEmpty then [] else line doc

/-- A parameter list. -/
def paramList (params : List Surface.Param) : Text :=
  Text.join ", " (params.map fun p => p.type.display ++ " " ++ p.name)

/-- A description in markup, which has to be a text. -/
def markup (comment : Json) : Except Failure Text :=
  match comment with
  | .str text => .ok (cleanMarkup text)
  | _ => .error .wrongKind

/-- The documentation of a field: nothing for a comment that is not given, and
a given one has to be a text. -/
def fieldDoc (comment : Json) : Except Failure Text :=
  if !comment.isTruthy then .ok []
  else match comment with
    | .str text => .ok (docComment text "  ")
    | _ => .error .noSuchProperty

/-- The declaration of a field. -/
def fieldText (field : Surface.Param) : Except Failure Text := do
  let doc ← fieldDoc field.comment
  return docLines doc ++ line ("  public " ++ field.type.display ++ " " ++ field.name ++ ";")

/-- The declarations of fields. -/
def fieldTexts : List Surface.Param → Except Failure Text
  | [] => .ok []
  | field :: rest => do
    let first ← fieldText field
    let others ← fieldTexts rest
    return first ++ others

/-- The constructor of a class, if it has parameters. -/
def constructorText (c : Surface.Class) : Text :=
  if c.constructorParams.isEmpty then []
  else
    line ("  public " ++ c.name.display ++ "(" ++ paramList c.constructorParams ++ ") \x7b") ++
      (c.constructorParams.flatMap fun p => line ("    this." ++ p.name ++ " = " ++ p.name ++ ";")) ++
      line "  \x7d"

/-- What a setter does. -/
def builderBody (b : Surface.Builder) : Text :=
  if b.nestedClass.isTruthy then
    line ("    return " ++ b.method ++ "(new " ++ b.nestedClass.display ++ "(" ++
      Text.join ", " (b.params.map (·.name)) ++ "));")
  else store
where
  /-- Store the value and return the object. -/
  store : Text :=
    let value := if b.wrapsOptional then "Optional.ofNullable(" ++ b.field ++ ")" else b.field
    line ("    this." ++ b.field ++ " = " ++ value ++ ";") ++ line "    return this;"

/-- A setter of a class. -/
def builderText (className : Text) (b : Surface.Builder) : Text :=
  line ("  public " ++ className ++ " " ++ b.method ++ "(" ++ paramList b.params ++ ") \x7b") ++
    builderBody b ++ line "  \x7d"

/-- The declaration of a class. -/
def classText (c : Surface.Class) : Except Failure Text := do
  let fields ← fieldTexts c.fields
  let head := "class " ++ c.name.display ++ " \x7b"
  return line (if c.isPublic then "public " ++ head else head) ++
    fields ++ "\n" ++ constructorText c ++ c.builders.flatMap (builderText c.name.display) ++
    line "\x7d"

/-- The declarations of classes. -/
def classTexts : List Surface.Class → Except Failure (List Text)
  | [] => .ok []
  | c :: rest => do
    let first ← classText c
    let others ← classTexts rest
    return first :: others

/-- The declaration of an enum. -/
def enumText (e : EnumType) : Text :=
  line ("public enum " ++ e.name ++ " \x7b") ++ line ("  " ++ Text.join ",\n  " e.values) ++
    line "\x7d"

/-- The line about a parameter. -/
def paramTag (param : Surface.Param) : Text :=
  "@param " ++ param.name ++ " " ++ param.comment.display

/-- The lines about parameters and the result below a description, with an
empty line in front of the first of them. -/
def tagLines (method : Surface.Overload) : List Text :=
  let described := method.params.filter fun p => p.comment.isTruthy
  let tags := described.map paramTag ++
    (if method.returnComment.isNull then [] else ["@return " ++ method.returnComment.display])
  if tags.isEmpty then [] else [] :: tags

/-- The documentation of a method. -/
def methodDoc (method : Surface.Overload) : Except Failure Text := do
  let description ← markup method.comment
  return docComment (Text.join "\n" (description :: tagLines method)) "  "

/-- The declaration of a method without its documentation. -/
def methodDeclaration (method : Surface.Overload) : Text :=
  if !method.signature.isNull then line ("  " ++ method.signature.display)
  else
    let head := method.returnType.display ++ " " ++ method.name ++ "(" ++ paramList method.params ++ ")"
    match method.delegateArgs with
    | some args =>
      let call := method.name ++ "(" ++ Text.join ", " args ++ ");"
      line ("  default " ++ head ++ " \x7b") ++
        line ("    " ++ if method.returnType.isText voidType then call else "return " ++ call) ++
        line "  \x7d"
    | none => line ("  " ++ head ++ ";")

/-- The declarations of methods. -/
def methodTexts : List Surface.Overload → Except Failure Text
  | [] => .ok []
  | method :: rest => do
    let doc ← methodDoc method
    let others ← methodTexts rest
    return docLines doc ++ methodDeclaration method ++ others

/-- The pair of methods of a listener. -/
def listenerText (listener : Surface.Listener) : Except Failure Text := do
  let description ← markup listener.comment
  let handler := listener.event ++ "(" ++ listener.handlerType ++ " handler);"
  return "\n" ++ docLines (docComment description "  ") ++
    line ("  void on" ++ handler) ++ line ("  void off" ++ handler)

/-- The pairs of methods of listeners. -/
def listenerTexts : List Surface.Listener → Except Failure Text
  | [] => .ok []
  | listener :: rest => do
    let first ← listenerText listener
    let others ← listenerTexts rest
    return first ++ others

/-- The supertypes of an interface, if it has some. -/
def extendsText (supertypes : List Json) : Text :=
  if supertypes.isEmpty then []
  else " extends " ++ Text.join ", " (supertypes.map Json.display)

/-- The declaration of an interface. -/
def interfaceText (i : Surface.Interface) : Except Failure Text := do
  let nested ← classTexts i.nestedClasses
  let description ← markup i.comment
  let listeners ← listenerTexts i.listeners
  let methods ← methodTexts i.methods
  return docLines (docComment description []) ++
    line ("public interface " ++ i.name ++ extendsText i.supertypes ++ " \x7b") ++
    listeners ++ (if i.listeners.isEmpty then [] else line []) ++
    (nested.flatMap fun text => line (Text.indent "  " (Text.trim text))) ++
    methods ++ line "\x7d"

end Java
end ApiBindings
