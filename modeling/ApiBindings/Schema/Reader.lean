import ApiBindings.Failure
import ApiBindings.Schema.TypeNode
/-!
# Reading the description

The description is a list of interface objects.  Names are required, kinds and
lists are checked, and everything else that a node says is carried along as it
is.  A path joins the names of the nodes around a place with dots.
-/

namespace ApiBindings

/-- The two roles of a slot, told apart only when its type is missing. -/
inductive SlotRole where
  | parameter
  | property

/-- The cause when a slot has no type. -/
def SlotRole.withoutType : SlotRole → Cause
  | .parameter => .parameterWithoutType
  | .property => .propertyWithoutType

namespace Schema

/-- The entries and the name of an object, which may be required to have a
name that is not empty. -/
def named (allowEmpty : Bool) (path : Text) (data : Json) :
    Except Failure (List (Text × Json) × Text) :=
  match data with
  | .obj entries =>
    match Text.find? "name" entries with
    | some (.str name) =>
      if name = "" ∧ !allowEmpty then .error ((Cause.noName data).atPath path)
      else .ok (entries, name)
    | _ => .error ((Cause.noName data).atPath path)
  | _ => .error ((Cause.notAnObject data).atPath path)

/-- The type with these template arguments. -/
def templatedType (name path : Text) (templates : List TypeNode) : Except Failure TypeNode :=
  if name = "Array" then
    match templates with
    | [element] => .ok (.array path element)
    | _ => .error ((Cause.arrayArity templates.length).atPath path)
  else if name = "Map" ∨ name = "Object" then
    match templates with
    | [key, value] => .ok (.map name path key value)
    | _ => .error ((Cause.mapArity name templates.length).atPath path)
  else .ok (.generic name path templates)

mutual

/-- Read a type.  A union key decides first, then the name `function`, then the
template arguments, and last the name `Object`. -/
def readType (path : Text) : Json → Except Failure TypeNode
  | .obj entries => do
    let (_, name) ← named true path (.obj entries)
    if (Text.find? "union" entries).isSome then
      return .union name path (← readTypesAt "union" path entries)
    else if name = "function" then
      if (Text.find? "args" entries).isSome then
        let args ← readTypesAt "args" path entries
        return .function path args (← readTypeAt "returnType" path entries)
      else
        return .bareFunction path (← readTypeAt "returnType" path entries)
    else
      let templates ← readTypesAt "templates" path entries
      if !templates.isEmpty then templatedType name path templates
      else if name = "Object" then
        return .record path (← readSlotsAt "properties" path entries)
      else if name = "" then throw (Cause.typeWithoutName.atPath path)
      else return .primitive name path
  | data => .error ((Cause.notAnObject data).atPath path)

/-- Read the types of a list. -/
def readTypes (path : Text) : List Json → Except Failure (List TypeNode)
  | [] => .ok []
  | data :: rest => do
    let first ← readType path data
    return first :: (← readTypes path rest)

/-- Read the list of types under a key; a missing or null list is empty. -/
def readTypesAt (key path : Text) : List (Text × Json) → Except Failure (List TypeNode)
  | [] => .ok []
  | (k, data) :: rest =>
    if k = key then
      match data with
      | .null => .ok []
      | .arr items => readTypes path items
      | data => .error ((Cause.notAList key data).atPath path)
    else readTypesAt key path rest

/-- Read the type under a key, if there is one. -/
def readTypeAt (key path : Text) : List (Text × Json) → Except Failure (Option TypeNode)
  | [] => .ok none
  | (k, data) :: rest =>
    if k = key then
      match data with
      | .null => .ok none
      | data => do return some (← readType path data)
    else readTypeAt key path rest

/-- Read a parameter or a property of the owner of a path. -/
def readSlot (role : SlotRole) (ownerPath : Text) : Json → Except Failure (Slot TypeNode)
  | .obj entries => do
    let (_, name) ← named false ownerPath (.obj entries)
    let path := ownerPath ++ "." ++ name
    match ← readTypeAt "type" path entries with
    | none => throw (role.withoutType.atPath path)
    | some type =>
      return {
        name, path, type
        required := ((Text.find? "required" entries).map Json.isTruthy).getD false
        comment := (Text.find? "comment" entries).getD (.str "") }
  | data => .error ((Cause.notAnObject data).atPath ownerPath)

/-- Read the slots of a list. -/
def readSlots (role : SlotRole) (ownerPath : Text) :
    List Json → Except Failure (List (Slot TypeNode))
  | [] => .ok []
  | data :: rest => do
    let first ← readSlot role ownerPath data
    return first :: (← readSlots role ownerPath rest)

/-- Read the properties under a key; a missing or null list is empty. -/
def readSlotsAt (key ownerPath : Text) :
    List (Text × Json) → Except Failure (List (Slot TypeNode))
  | [] => .ok []
  | (k, data) :: rest =>
    if k = key then
      match data with
      | .null => .ok []
      | .arr items => readSlots .property ownerPath items
      | data => .error ((Cause.notAList key data).atPath ownerPath)
    else readSlotsAt key ownerPath rest

end

/-- Whether a parameter is an options record without options, which adds
nothing to a signature. -/
def isEmptyOptions (param : Slot TypeNode) : Bool :=
  param.name = "options" &&
    match param.type with
    | .record _ [] => true
    | _ => false

/-- Read the parameters of a member. -/
def readParams (path : Text) (args : Option Json) : Except Failure (List (Slot TypeNode)) :=
  match args with
  | none | some .null => .ok []
  | some (.arr items) => do
    let params ← readSlots .parameter path items
    return params.filter fun param => !isEmptyOptions param
  | some data => .error ((Cause.notAList "args" data).atPath path)

/-- Read a member of the interface of this path. -/
def readMember (interfacePath : Text) (data : Json) : Except Failure Member := do
  let (entries, name) ← named false interfacePath data
  let path := interfacePath ++ "." ++ name
  let kindValue := (Text.find? "kind" entries).getD .null
  match MemberKind.ofJson? kindValue with
  | none => throw ((Cause.unknownMemberKind kindValue).atPath path)
  | some kind =>
    let type ← readTypeAt "type" path entries
    let params ← readParams path (Text.find? "args" entries)
    return {
      kind, name, path, type, params
      comment := (Text.find? "comment" entries).getD (.str "")
      returnComment := (Text.find? "returnComment" entries).getD .null
      required := ((Text.find? "required" entries).map Json.isTruthy).getD true }

/-- The values that a collection of members holds: the items of a list, the
characters of a text, the keys of an object. -/
def memberValues : Json → Except Failure (List Json)
  | .arr items => .ok items
  | .str text => .ok (text.map fun c => .str [c])
  | .obj entries => .ok (entries.map fun entry => .str entry.1)
  | _ => .error .wrongKind

/-- Read the members of the interface of this path. -/
def readMembers (interfacePath : Text) : List Json → Except Failure (List Member)
  | [] => .ok []
  | data :: rest => do
    let first ← readMember interfacePath data
    return first :: (← readMembers interfacePath rest)

/-- Read an interface. -/
def readInterface (data : Json) : Except Failure Interface := do
  let (entries, name) ← named false "" data
  let supertype := (Text.find? "extends" entries).getD .null
  let members ← match Text.find? "members" entries with
    | none => .ok []
    | some collection => memberValues collection
  return {
    name
    path := name
    supertype := if supertype.isTruthy then supertype else .null
    comment := (Text.find? "comment" entries).getD (.str "")
    members := ← readMembers name members }

/-- Read the interfaces of a list. -/
def readInterfaces : List Json → Except Failure (List Interface)
  | [] => .ok []
  | data :: rest => do
    let first ← readInterface data
    return first :: (← readInterfaces rest)

/-- Read a whole description. -/
def read : Json → Except Failure (List Interface)
  | .arr items => readInterfaces items
  | data => .error ((Cause.notInterfaces data).atPath "")

end Schema
end ApiBindings
