import ApiBindings.Json.Basic
/-!
# Type trees

The types of the description, before any of them is resolved.  Every node
carries the path of the member, parameter or property that it types, however
deep it lies inside that type.
-/

namespace ApiBindings

/-- A named place with a type: a parameter of a method or a property of a record. -/
structure Slot (τ : Type) where
  name : Text
  path : Text
  type : τ
  required : Bool
  comment : Json
deriving Repr

/-- A type of the description. -/
inductive TypeNode where
  /-- A named type without parts: a builtin, an interface, `null`. -/
  | primitive (name path : Text)
  | array (path : Text) (element : TypeNode)
  /-- A key-value mapping, named `Map` or `Object`. -/
  | map (name path : Text) (key value : TypeNode)
  /-- A union; without a name it is anonymous. -/
  | union (name path : Text) (members : List TypeNode)
  /-- Any other name with template arguments. -/
  | generic (name path : Text) (args : List TypeNode)
  /-- A function declared without an argument list. -/
  | bareFunction (path : Text) (result : Option TypeNode)
  | function (path : Text) (args : List TypeNode) (result : Option TypeNode)
  /-- A record with inline properties. -/
  | record (path : Text) (properties : List (Slot TypeNode))
deriving Repr

namespace TypeNode

/-- The name that the description gives a type. -/
def name : TypeNode → Text
  | .primitive name _ => name
  | .array .. => "Array"
  | .map name .. => name
  | .union name .. => name
  | .generic name .. => name
  | .bareFunction .. => "function"
  | .function .. => "function"
  | .record .. => "Object"

/-- The path of the member, parameter or property that a type belongs to. -/
def path : TypeNode → Text
  | .primitive _ path => path
  | .array path _ => path
  | .map _ path _ _ => path
  | .union _ path _ => path
  | .generic _ path _ => path
  | .bareFunction path _ => path
  | .function path _ _ => path
  | .record path _ => path

/-- Whether a type is the type of nothing but null. -/
def isNull : TypeNode → Bool
  | .primitive name _ => name = "null"
  | _ => false

def isBareFunction : TypeNode → Bool
  | .bareFunction .. => true
  | _ => false

def isArray : TypeNode → Bool
  | .array .. => true
  | _ => false

/-- Whether a union member gets an overload of its own. -/
def isVariant (node : TypeNode) : Bool :=
  !node.isNull && !node.isBareFunction

/-- The members of a union that get overloads of their own. -/
def variants (members : List TypeNode) : List TypeNode :=
  members.filter isVariant

/-- The member `T` of an anonymous union of `T` and null, leaving bare
functions aside. -/
def nullableMember? (members : List TypeNode) : Option TypeNode :=
  let members := members.filter fun m => !m.isBareFunction
  if members.length = 2 ∧ members.any isNull then members.find? fun m => !m.isNull
  else none

/-- The type `T` of an anonymous union of `T` and null. -/
def nullablePart? : TypeNode → Option TypeNode
  | .union name _ members => if name = "" then nullableMember? members else none
  | _ => none

/-- What a function with one argument is to its caller, by what it returns. -/
inductive FunctionRole where
  | consumer
  | predicate
  | other
deriving DecidableEq, Repr

/-- A function that returns nothing is a consumer, one that returns a truth
value a predicate. -/
def functionRole : Option TypeNode → FunctionRole
  | none => .consumer
  | some (.primitive name _) => if name = "boolean" then .predicate else .other
  | some _ => .other

/-- A type without the promises around it. -/
def withoutPromise : TypeNode → TypeNode
  | .generic name path [arg] =>
    if name = "Promise" then withoutPromise arg else .generic name path [arg]
  | node => node

end TypeNode

/-- What an interface has. -/
inductive MemberKind where
  | method
  | property
  | event
deriving DecidableEq, Repr

/-- The kind that a value names. -/
def MemberKind.ofJson? : Json → Option MemberKind
  | .str name =>
    if name = "method" then some .method
    else if name = "property" then some .property
    else if name = "event" then some .event
    else none
  | _ => none

/-- A method, property or event. -/
structure Member where
  kind : MemberKind
  name : Text
  path : Text
  /-- Absent for a method that returns nothing. -/
  type : Option TypeNode
  params : List (Slot TypeNode)
  comment : Json
  returnComment : Json
  required : Bool
deriving Repr

/-- An interface of the description. -/
structure Interface where
  name : Text
  path : Text
  /-- The declared supertype; null if there is none. -/
  supertype : Json
  comment : Json
  members : List Member
deriving Repr

end ApiBindings
