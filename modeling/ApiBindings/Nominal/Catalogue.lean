import ApiBindings.Failure
import ApiBindings.Nominal.Basic
import ApiBindings.Schema.TypeNode
import ApiBindings.Text.Naming
/-!
# The catalogue of nominal types

The catalogue holds the global types in the order in which they came, and for
each owner its local classes.  Nothing is ever removed or replaced: a second
global definition has to agree with the first one, and a second local
definition is ignored.
-/

namespace ApiBindings

/-- The nominal types known so far. -/
structure Catalogue where
  globals : List NominalType
  /-- The local classes of each owner, owners in the order of first use. -/
  locals : List (Text × List ClassType)
deriving Repr

namespace Catalogue

def empty : Catalogue := ⟨[], []⟩

/-- The global type of a name. -/
def global? (catalogue : Catalogue) (name : Json) : Option NominalType :=
  catalogue.globals.find? fun type => type.name.same name

/-- Look the global type of a name up, which has to be a value to look up by. -/
def lookUp (catalogue : Catalogue) (name : Json) : Except Failure (Option NominalType) :=
  if name.isKey then .ok (catalogue.global? name) else .error .wrongKind

def globalClasses (catalogue : Catalogue) : List ClassType :=
  catalogue.globals.filterMap NominalType.asClass?

def globalEnums (catalogue : Catalogue) : List EnumType :=
  catalogue.globals.filterMap NominalType.asEnum?

/-- The local classes of an owner. -/
def localClasses (catalogue : Catalogue) (owner : Text) : List ClassType :=
  (Text.find? owner catalogue.locals).getD []

/-- The local class of a name. -/
def local? (catalogue : Catalogue) (owner : Text) (name : Json) : Option ClassType :=
  (catalogue.localClasses owner).find? fun type => type.name.same name

/-- The catalogue with one more global type. -/
def addGlobal (catalogue : Catalogue) (type : NominalType) : Catalogue :=
  { catalogue with globals := catalogue.globals ++ [type] }

/-- Change the classes of one owner, who may be new. -/
def updateOwner (owner : Text) (change : List ClassType → List ClassType) :
    List (Text × List ClassType) → List (Text × List ClassType)
  | [] => [(owner, change [])]
  | (o, classes) :: rest =>
    if o = owner then (o, change classes) :: rest else (o, classes) :: updateOwner owner change rest

/-- The catalogue with an owner who may have local classes. -/
def openOwner (catalogue : Catalogue) (owner : Text) : Catalogue :=
  { catalogue with locals := updateOwner owner id catalogue.locals }

/-- The catalogue with one more local class. -/
def addLocal (catalogue : Catalogue) (owner : Text) (type : ClassType) : Catalogue :=
  { catalogue with locals := updateOwner owner (· ++ [type]) catalogue.locals }

/-- The values of an enum for the members of a union, after the values before. -/
def enumValues (enum path : Text) (done : List Text) : List TypeNode → Except Failure (List Text)
  | [] => .ok done
  | member :: rest =>
    let value := Text.enumConstant member.name
    if member.isNull then .error ((Cause.nullInEnum enum).atPath path)
    else if !Text.isIdentifierLine value then
      .error ((Cause.notAnIdentifier enum member.name).atPath path)
    else if done.contains value then .error ((Cause.duplicateValue enum value).atPath path)
    else enumValues enum path (done ++ [value]) rest

/-- Register an enum, or find the one that is registered with these values. -/
def addEnum (catalogue : Catalogue) (new : EnumType) : Except Failure (EnumType × Catalogue) :=
  match catalogue.global? (.str new.name) with
  | none => .ok (new, catalogue.addGlobal (.ofEnum new))
  | some existing =>
    let conflict : Failure :=
      (Cause.conflictingEnum new.name new.values existing.describe).atPath new.path
    match existing with
    | .ofEnum type => if type.values = new.values then .ok (type, catalogue) else .error conflict
    | .ofClass _ => .error conflict

/-- Create or find the enum for a union of literals. -/
def enumFor (catalogue : Catalogue) (name path : Text) (members : List TypeNode) :
    Except Failure (EnumType × Catalogue) := do
  if name = "" then throw (Cause.unnamedEnum.atPath path)
  let values ← enumValues name path [] members
  catalogue.addEnum { name, values, path }

/-- Register a class in its scope, or find the one that is registered there.
The owner of a local class is opened before. -/
def addClass (catalogue : Catalogue) (new : ClassType) : Except Failure (ClassType × Catalogue) :=
  if !new.name.isKey then .error .wrongKind
  else match new.scope with
  | .ownerLocal =>
    let owner := new.owner.getD []
    match catalogue.local? owner new.name with
    | some existing => .ok (existing, catalogue)
    | none => .ok (new, catalogue.addLocal owner new)
  | .global =>
    match catalogue.global? new.name with
    | none => .ok (new, catalogue.addGlobal (.ofClass new))
    | some existing =>
      let conflict : Failure :=
        (Cause.conflictingClass new.name.display (NominalType.ofClass new).describe existing.describe
          existing.path).atPath new.path
      match existing with
      | .ofClass type => if type.agrees new then .ok (type, catalogue) else .error conflict
      | .ofEnum _ => .error conflict

/-- The record at the end of a chain of containers with one argument. -/
def recordBelow (path : Text) : TypeNode → Except Failure (Option (List (Slot TypeNode)))
  | .record _ properties => .ok (some properties)
  | .array _ element => recordBelow path element
  | .generic _ _ [arg] => recordBelow path arg
  | .generic name _ args => .error ((Cause.containerArity name args.length).atPath path)
  | .map name _ _ _ => .error ((Cause.containerArity name 2).atPath path)
  | _ => .ok none

/-- The properties of the record that a class is made from: that of the first
member other than null if the type is an anonymous union, inside any containers
with one argument. -/
def classRecord (node : TypeNode) : Except Failure (Option (List (Slot TypeNode))) :=
  match node with
  | .union name path members =>
    if name ≠ "" then .error ((Cause.namedUnionAsClass name).atPath path)
    else match members.find? fun m => !m.isNull with
      | some member => recordBelow path member
      | none => .ok none
  | node => recordBelow node.path node

end Catalogue
end ApiBindings
