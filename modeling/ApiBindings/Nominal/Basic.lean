import ApiBindings.Json.Literal
/-!
# Resolved types and nominal types

A resolved type is referred to by its name, which for a builtin is its Java
spelling.  A name that the settings give may be any value, and is shown as it
would be in running text.  Records and named unions
of the description become nominal types: classes with fields and enums with
values.
-/

namespace ApiBindings

/-- What a resolved type is. -/
inductive TypeKind where
  /-- A builtin, a container or a declared interface. -/
  | builtin
  | classType
  | enumType
  /-- An anonymous union, to be expanded where it is used. -/
  | union
deriving DecidableEq, Repr

/-- Where the name of a nominal type is unique: in the whole run or within its
owner. -/
inductive Scope where
  | global
  | ownerLocal
deriving DecidableEq, Repr

/-- A reference to a resolved type. -/
inductive TypeRef where
  | mk (kind : TypeKind) (name : Json) (scope : Scope) (owner : Option Text)
    (isNullable : Bool) (variants : List TypeRef)
deriving Repr

namespace TypeRef

def kind : TypeRef → TypeKind
  | .mk kind _ _ _ _ _ => kind

/-- The name of the type, usually the text that it is spelled by. -/
def name : TypeRef → Json
  | .mk _ name _ _ _ _ => name

def scope : TypeRef → Scope
  | .mk _ _ scope _ _ _ => scope

/-- The interface that an owner-local type belongs to. -/
def owner : TypeRef → Option Text
  | .mk _ _ _ owner _ _ => owner

def isNullable : TypeRef → Bool
  | .mk _ _ _ _ isNullable _ => isNullable

/-- The supported variants of an anonymous union. -/
def variants : TypeRef → List TypeRef
  | .mk _ _ _ _ _ variants => variants

/-- A type that is written as it is spelled. -/
def builtin (spelling : Text) : TypeRef :=
  .mk .builtin (.str spelling) .global none false []

/-- A class that is known everywhere. -/
def globalClass (name : Json) : TypeRef :=
  .mk .classType name .global none false []

def enum (name : Json) : TypeRef :=
  .mk .enumType name .global none false []

/-- An anonymous union of these variants. -/
def union (name : Text) (variants : List TypeRef) : TypeRef :=
  .mk .union (.str name) .global none false variants

/-- The same type with null among its values. -/
def asNullable : TypeRef → TypeRef
  | .mk kind name scope owner _ variants => .mk kind name scope owner true variants

def isUnion (ref : TypeRef) : Bool :=
  ref.kind = .union

end TypeRef

/-- A field of a class. -/
structure Field where
  name : Text
  type : Option TypeRef
  required : Bool
  comment : Json
deriving Repr

/-- What two definitions of a class have to agree on in a field. -/
structure FieldSignature where
  name : Text
  required : Bool
  typeName : Json
  isNullable : Bool
deriving Repr

/-- Whether two fields agree. -/
def FieldSignature.agrees (a b : FieldSignature) : Bool :=
  a.name = b.name && a.required = b.required && a.typeName.same b.typeName &&
    a.isNullable = b.isNullable

/-- The signature of a field; a missing type is spelled by no text. -/
def Field.signature (field : Field) : FieldSignature where
  name := field.name
  required := field.required
  typeName := (field.type.map TypeRef.name).getD (.str [])
  isNullable := (field.type.map TypeRef.isNullable).getD false

/-- A class made from a record. -/
structure ClassType where
  name : Json
  fields : List Field
  scope : Scope
  owner : Option Text
  path : Text
  /-- Only methods return it, so that nobody has to build one. -/
  isReturnType : Bool
deriving Repr

/-- The signatures of the fields of a class. -/
def ClassType.signature (type : ClassType) : List FieldSignature :=
  type.fields.map Field.signature

/-- Whether two classes agree in their fields, one after the other. -/
def ClassType.agrees (a b : ClassType) : Bool :=
  a.fields.length = b.fields.length &&
    (a.signature.zip b.signature).all fun (f, g) => f.agrees g

/-- An enum made from a named union of literals. -/
structure EnumType where
  name : Text
  values : List Text
  path : Text
deriving DecidableEq, Repr

/-- A class or an enum. -/
inductive NominalType where
  | ofClass (type : ClassType)
  | ofEnum (type : EnumType)
deriving Repr

namespace NominalType

def name : NominalType → Json
  | .ofClass type => type.name
  | .ofEnum type => .str type.name

def path : NominalType → Text
  | .ofClass type => type.path
  | .ofEnum type => type.path

def asClass? : NominalType → Option ClassType
  | .ofClass type => some type
  | .ofEnum _ => none

def asEnum? : NominalType → Option EnumType
  | .ofClass _ => none
  | .ofEnum type => some type

/-- A type as messages show it, if it is known. -/
def describeType : Option TypeRef → Text
  | some ref => ref.name.display
  | none => "?"

/-- A field as messages show it. -/
def describeField (field : Field) : Text :=
  field.name ++ ":" ++ describeType field.type

/-- A nominal type as messages show it. -/
def describe : NominalType → Text
  | .ofClass type => "class \x7b" ++ Text.join ", " (type.fields.map describeField) ++ "\x7d"
  | .ofEnum type => "enum " ++ Literal.texts type.values

end NominalType
end ApiBindings
