import ApiBindings.Java.Spelling
import ApiBindings.Nominal.Catalogue
import ApiBindings.Surface.Basic
import ApiBindings.Text.Naming
/-!
# Declarations of classes

A class declares its fields, a constructor over the required ones and setters
for the optional ones.  A class that only methods return has fields alone.
-/

namespace ApiBindings
namespace Surface

/-- The type of a field, where no type is that of any object. -/
def fieldRef (field : Field) : TypeRef :=
  field.type.getD (.builtin Java.objectType)

/-- The type that a field is declared with: an optional one if null is among
its values, and one that can be left unset if the field is not required. -/
def fieldType (field : Field) : Except Failure Json := do
  let ref := fieldRef field
  let type ← if ref.isNullable then do return .str (← Java.optionalOf ref.name) else .ok ref.name
  if field.required then return type else Java.box type

/-- Fields as they are declared, each with a comment taken from it. -/
def declareFields (comment : Field → Json) : List Field → Except Failure (List Param)
  | [] => .ok []
  | field :: rest => do
    let type ← fieldType field
    let others ← declareFields comment rest
    return { name := field.name, type, comment := comment field } :: others

/-- The parameters that fields are set from. -/
def fieldParams (fields : List Field) : Except Failure (List Param) :=
  declareFields (fun _ => .str []) fields

/-- The setter that takes the value of a field as it is. -/
def directBuilder (field : Field) (type : TypeRef) : Builder where
  method := "with" ++ Text.capitalizeFirst field.name
  field := field.name
  params := [{ name := field.name, type := type.name, comment := .str [] }]
  nestedClass := .null
  wrapsOptional := (fieldRef field).isNullable

/-- The setter that makes the value of a field from the required fields of its
class, if that is a global class with some. -/
def nestedBuilder? (catalogue : Catalogue) (field : Field) : Except Failure (Option Builder) := do
  let ref := fieldRef field
  if ref.kind ≠ .classType then return none
  match ← catalogue.lookUp ref.name with
  | some (.ofClass nested) =>
    let required := nested.fields.filter (·.required)
    if required.isEmpty then return none
    return some {
      method := "with" ++ Text.capitalizeFirst field.name
      field := field.name
      params := ← fieldParams required
      nestedClass := nested.name
      wrapsOptional := false }
  | _ => return none

/-- The setters of an optional field: one for each variant of a union, else one
for its type and before it, if possible, one that makes its value. -/
def fieldBuilders (catalogue : Catalogue) (field : Field) : Except Failure (List Builder) := do
  let ref := fieldRef field
  if ref.isUnion then return ref.variants.map (directBuilder field)
  let nested ← nestedBuilder? catalogue field
  return nested.toList ++ [directBuilder field ref]

/-- The setters of the optional ones among some fields. -/
def buildersOf (catalogue : Catalogue) : List Field → Except Failure (List Builder)
  | [] => .ok []
  | field :: rest => do
    let first ← if field.required then .ok [] else fieldBuilders catalogue field
    let others ← buildersOf catalogue rest
    return first ++ others

/-- The declaration of a class. -/
def Class.of (catalogue : Catalogue) (type : ClassType) : Except Failure Class := do
  let fields ← declareFields Field.comment type.fields
  let constructorParams ←
    if type.isReturnType then .ok [] else fieldParams (type.fields.filter (·.required))
  let builders ← if type.isReturnType then .ok [] else buildersOf catalogue type.fields
  return {
    name := type.name
    fields, constructorParams, builders
    isReturnType := type.isReturnType
    isPublic := type.scope = .global }

/-- The declarations of classes. -/
def classesOf (catalogue : Catalogue) : List ClassType → Except Failure (List Class)
  | [] => .ok []
  | type :: rest => do
    let first ← Class.of catalogue type
    let others ← classesOf catalogue rest
    return first :: others

end Surface
end ApiBindings
