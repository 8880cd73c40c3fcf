import ApiBindings.Fault
import ApiBindings.Json.Literal
/-!
# Failures

Every failure is fatal for a run.  A diagnosed one has a cause and the path of
the schema node it was found at; the other ones are uses of a value that was
never checked and has the wrong kind for what is done with it.
-/

namespace ApiBindings

/-- The families of diagnosed causes. -/
inductive Family where
  | schemaShape
  | overrideMismatch
  | duplicateNominalType
  | unsupportedTypeShape
  | unnamedUnion
  | unsupportedLanguage
  | generatedCode
deriving DecidableEq, Repr

/-- What was found wrong. -/
inductive Cause where
  /-- The schema is not a list. -/
  | notInterfaces (found : Json)
  | notAnObject (found : Json)
  | noName (found : Json)
  | notAList (key : Text) (found : Json)
  | unknownMemberKind (found : Json)
  | parameterWithoutType
  | propertyWithoutType
  | arrayArity (count : Nat)
  | mapArity (name : Text) (count : Nat)
  | typeWithoutName
  | onlyNotAList (found : Json)
  | aliasesNotAnObject (found : Json)
  | badAlias (language : Text) (found : Json)
  | typesNotAnObject (found : Json)
  | overrideWithoutName (language : Text) (found : Json)
  | incompleteOverride (found : Json)
  | overrideMismatch (expected : Json) (found : Text)
  | nullOutsideUnion
  | noMapping (expression : Text)
  | unsupportedMap (expression : Text)
  | unnamedUnion (expression : Text)
  | unnamedEnum
  | nullInEnum (enum : Text)
  | notAnIdentifier (enum literal : Text)
  | duplicateValue (enum value : Text)
  | conflictingEnum (name : Text) (values : List Text) (existing : Text)
  | conflictingClass (name new existing existingPath : Text)
  | namedUnionAsClass (name : Text)
  | containerArity (name : Text) (count : Nat)
  | secondUnionParameter (name : Text)
  | unknownLanguage (language : Text)
  | noPackage
  | noDeclaration
  | unbalancedBraces (opening closing : Nat)
deriving Repr

/-- The family of a cause. -/
def Cause.family : Cause → Family
  | .overrideMismatch .. => .overrideMismatch
  | .conflictingEnum .. | .conflictingClass .. => .duplicateNominalType
  | .nullOutsideUnion | .noMapping _ | .unsupportedMap _ | .secondUnionParameter _ =>
    .unsupportedTypeShape
  | .unnamedUnion _ | .unnamedEnum => .unnamedUnion
  | .unknownLanguage _ => .unsupportedLanguage
  | .noPackage | .noDeclaration | .unbalancedBraces .. => .generatedCode
  | _ => .schemaShape

/-- A cause in words. -/
def Cause.message : Cause → Text
  | .notInterfaces found => "Expected a list of interfaces, got " ++ found.kindName
  | .notAnObject found => "Expected an object, got " ++ found.literal
  | .noName found => "Missing name in " ++ found.literal
  | .notAList key found => "Expected '" ++ key ++ "' to be a list, got " ++ found.literal
  | .unknownMemberKind found => "Unexpected member kind: " ++ found.literal
  | .parameterWithoutType => "Parameter without type"
  | .propertyWithoutType => "Property without type"
  | .arrayArity count => "Array expects one template argument, got " ++ Text.ofInt count
  | .mapArity name count => name ++ " expects two template arguments, got " ++ Text.ofInt count
  | .typeWithoutName => "Type without name"
  | .onlyNotAList found => "'langs.only' must be a list, got " ++ found.literal
  | .aliasesNotAnObject found => "'langs.aliases' must be an object, got " ++ found.literal
  | .badAlias language found =>
    "Alias for " ++ language ++ " must be a non-empty string, got " ++ found.literal
  | .typesNotAnObject found => "'langs.types' must be an object, got " ++ found.literal
  | .overrideWithoutName language found =>
    "Type override for " ++ language ++ " has no name: " ++ found.literal
  | .incompleteOverride found => "Type override needs 'from' and 'to': " ++ found.literal
  | .overrideMismatch expected found =>
    "Unexpected source type. Expected: " ++ expected.display ++ "; found: " ++ found
  | .nullOutsideUnion => "Unexpected null type outside of a union"
  | .noMapping expression => "Missing mapping for " ++ expression
  | .unsupportedMap expression => "Unexpected object type: " ++ expression
  | .unnamedUnion expression => "Unexpected union without name: " ++ expression
  | .unnamedEnum => "Enum without name"
  | .nullInEnum enum => "Unexpected null in enum " ++ enum
  | .notAnIdentifier enum literal =>
    "Enum " ++ enum ++ " value " ++ Literal.text literal ++ " is not an identifier"
  | .duplicateValue enum value => "Enum " ++ enum ++ " has duplicate value " ++ value
  | .conflictingEnum name values existing =>
    "Two types named " ++ name ++ " have different values: " ++ Literal.texts values ++ " vs " ++ existing
  | .conflictingClass name new existing existingPath =>
    "Two classes named " ++ name ++ " have different fields: " ++ new ++ " vs " ++ existing ++
      " (" ++ existingPath ++ ")"
  | .namedUnionAsClass name => "Unexpected named union: " ++ name
  | .containerArity name count => "Unexpected number of parameters for " ++ name ++ ": " ++ Text.ofInt count
  | .secondUnionParameter name =>
    "Only one union-typed parameter can produce overloads, '" ++ name ++ "' is a second one"
  | .unknownLanguage language => "Language not supported: " ++ language
  | .noPackage => "Generated Java code is missing package declaration"
  | .noDeclaration => "Generated Java code has no type definitions"
  | .unbalancedBraces opening closing =>
    "Generated Java code has unbalanced braces: " ++ Text.ofInt opening ++ " open, " ++
      Text.ofInt closing ++ " close"

/-- A cause with the path of the node it was found at.  Before names have been
checked the path is whatever the node has for a name. -/
structure Diagnosis where
  cause : Cause
  path : Json
deriving Repr

/-- A diagnosis in words, with its path in front if it has one. -/
def Diagnosis.message (d : Diagnosis) : Text :=
  if d.path.isTruthy then d.path.display ++ ": " ++ d.cause.message else d.cause.message

/-- Why a run ends without a result. -/
inductive Failure where
  | diagnosed (diagnosis : Diagnosis)
  /-- A value of one kind was used where the operation needs another kind. -/
  | wrongKind
  /-- A property was asked of a value that has none of that name. -/
  | noSuchProperty
  /-- The setting for existing files is a text that names no mode. -/
  | unknownMode (name : Text)
  /-- The operating system refused to look something up. -/
  | refused (fault : Fault)
deriving Repr

/-- The failure with this cause at the node of this path. -/
def Cause.atPath (cause : Cause) (path : Text) : Failure :=
  .diagnosed ⟨cause, .str path⟩

end ApiBindings
