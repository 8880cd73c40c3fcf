import ApiBindings.Resolution
import ApiBindings.Surface.Class
import ApiBindings.Surface.Overload
/-!
# The declarations of an API

The interfaces are taken in the order of the description, and their members in
turn.  The classes and enums that come up on the way are declared at the end,
those local to an interface at the end of that interface.
-/

namespace ApiBindings
namespace Surface

/-- The owner of the type of a member. -/
def memberOwner (interface : ApiBindings.Interface) (member : Member) (kind : OwnerKind) : Owner where
  path := member.path
  kind
  name := member.name
  parentName := interface.name
  interface := interface.name

/-- The owner of the type of a parameter. -/
def paramOwner (interface : ApiBindings.Interface) (member : Member) (param : Slot TypeNode) : Owner where
  path := param.path
  kind := .param
  name := param.name
  parentName := member.name
  interface := interface.name

/-- Resolve the parameters of a member from this position on. -/
def resolveParams (settings : Settings) (interface : ApiBindings.Interface) (member : Member)
    (address : Address) (position : Nat) : List (Slot TypeNode) → Resolving (List ResolvedParam)
  | [] => pure []
  | param :: rest => do
    let type ← resolveType settings (paramOwner interface member param) (position :: address) param.type
    let others ← resolveParams settings interface member address (position + 1) rest
    pure ({ name := param.name, path := param.path, required := param.required,
            comment := param.comment, type } :: others)

/-- The overloads of a method.  A property counts as a method without parameters. -/
def declareMethod (settings : Settings) (interface : ApiBindings.Interface) (address : Address)
    (member : Member) : Resolving (List Overload) := do
  let signatures ← Resolving.ofExcept (settings.signatures member.path)
  match signatures with
  | .suppressed => pure []
  | signatures => do
    let returnType ← resolve settings (memberOwner interface member .method) (0 :: address) member.type
    let params ← resolveParams settings interface member address 1 member.params
    match signatures with
    | .written texts => pure (writtenOverloads (.of member) params texts)
    | .malformed => throw .wrongKind
    | _ => Resolving.ofExcept (overloads (.of member) returnType params)

/-- The listeners and the overloads of members from this position on. -/
def declareMembers (settings : Settings) (interface : ApiBindings.Interface) (address : Address)
    (position : Nat) : List Member → Resolving (List Listener × List Overload)
  | [] => pure ([], [])
  | member :: rest => do
    let address' := position :: address
    let (listeners, methods) ← match member.kind with
      | .event => do
        let type ← resolve settings (memberOwner interface member .event) (0 :: address') member.type
        let listener ← Resolving.ofExcept (Listener.of (.of member) type)
        pure ([listener], [])
      | _ => do
        let methods ← declareMethod settings interface address' member
        pure ([], methods)
    let (otherListeners, otherMethods) ←
      declareMembers settings interface address (position + 1) rest
    pure (listeners ++ otherListeners, methods ++ otherMethods)

/-- The supertypes that an interface is declared with. -/
def supertypes (settings : Settings) (interface : ApiBindings.Interface) :
    Except Failure (List Json) := do
  let kept ←
    if interface.supertype.isTruthy then settings.keepsSupertype interface.supertype else .ok false
  let closeable ← settings.isAutoCloseable interface.name
  return (if kept then [interface.supertype] else []) ++
    (if closeable then [.str "AutoCloseable"] else [])

/-- The declaration of an interface. -/
def declareInterface (settings : Settings) (address : Address) (interface : ApiBindings.Interface) :
    Resolving Interface := do
  let supertypes ← Resolving.ofExcept (supertypes settings interface)
  let (listeners, methods) ← declareMembers settings interface address 0 interface.members
  let catalogue := (← get).catalogue
  let nestedClasses ← Resolving.ofExcept (classesOf catalogue (catalogue.localClasses interface.name))
  pure {
    name := interface.name
    comment := interface.comment
    supertypes, listeners, methods, nestedClasses }

/-- The declarations of interfaces from this position on. -/
def declareInterfaces (settings : Settings) (position : Nat) :
    List ApiBindings.Interface → Resolving (List Interface)
  | [] => pure []
  | interface :: rest => do
    let first ← declareInterface settings [position] interface
    let others ← declareInterfaces settings (position + 1) rest
    pure (first :: others)

/-- The surface of a description, without a banner. -/
def declaring (settings : Settings) (interfaces : List ApiBindings.Interface) : Resolving Surface := do
  let interfaces ← declareInterfaces settings 0 interfaces
  let catalogue := (← get).catalogue
  let classes ← Resolving.ofExcept (classesOf catalogue catalogue.globalClasses)
  pure {
    interfaces, classes
    enums := catalogue.globalEnums
    banner := [] }

/-- The surface of a description, without a banner. -/
def declare (settings : Settings) (interfaces : List ApiBindings.Interface) : Except Failure Surface :=
  ((declaring settings interfaces).run.run .empty).1

end Surface
end ApiBindings
