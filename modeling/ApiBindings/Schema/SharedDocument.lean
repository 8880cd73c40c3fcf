import ApiBindings.Schema.Availability
/-!
# Restricting shared nodes

A document in which one node may stand in several places, and the restriction
of its nodes to a language one after the other.  A type given for the language
is put in place as the node that it is, so it is restricted once for each of
its places, each time as the time before has left it.
-/

namespace ApiBindings

/-- What a node of a document is; the nodes in it are given by their numbers. -/
inductive Cell where
  /-- A value that is neither a list nor an object. -/
  | leaf (value : Json)
  | list (items : List Nat)
  | object (entries : List (Text × Nat))
deriving Repr

/-- The nodes of a document by number. -/
structure Document where
  cells : Array Cell
deriving Repr

namespace Document

def empty : Document := ⟨#[]⟩

/-- The node of a number. -/
def cell (document : Document) (node : Nat) : Cell :=
  (document.cells[node]?).getD (.leaf .null)

/-- Replace a node. -/
def put (document : Document) (node : Nat) (cell : Cell) : Document :=
  ⟨document.cells.setIfInBounds node cell⟩

/-- Add a node, which gets the next number. -/
def add (cell : Cell) : StateM Document Nat := do
  let document ← get
  set (⟨document.cells.push cell⟩ : Document)
  return document.cells.size

mutual

/-- Add the nodes of a value. -/
def addTree : Json → StateM Document Nat
  | .arr items => do add (.list (← addTrees items))
  | .obj entries => do add (.object (← addEntries entries))
  | value => add (.leaf value)

/-- Add the nodes of the items of a list. -/
def addTrees : List Json → StateM Document (List Nat)
  | [] => pure []
  | item :: rest => do
    let first ← addTree item
    return first :: (← addTrees rest)

/-- Add the nodes of the entries of an object. -/
def addEntries : List (Text × Json) → StateM Document (List (Text × Nat))
  | [] => pure []
  | (key, value) :: rest => do
    let first ← addTree value
    return (key, first) :: (← addEntries rest)

end

/-- The value that a node stands for, as deep as the first argument says. -/
def valueTo (document : Document) : Nat → Nat → Json
  | 0, _ => .null
  | depth + 1, node =>
    match document.cell node with
    | .leaf value => value
    | .list items => .arr (items.map (valueTo document depth))
    | .object entries => .obj (entries.map fun (key, child) => (key, valueTo document depth child))

/-- The value that a node stands for.  No node is deeper than there are nodes,
because a node is never put below itself. -/
def value (document : Document) (node : Nat) : Json :=
  document.valueTo document.cells.size node

/-- The node under a key of an object. -/
def child? (document : Document) (key : Text) (node : Nat) : Option Nat :=
  match document.cell node with
  | .object entries => Text.find? key entries
  | _ => none

end Document

namespace Availability

/-- A document under restriction, and how many nodes were dropped so far. -/
structure Progress where
  document : Document
  dropped : Nat
deriving Repr

/-- A step of restricting a document. -/
abbrev Restricting := StateT Progress (Except Failure)

/-- Change the document. -/
def onDocument {α : Type} (step : StateM Document α) : Restricting α := do
  let progress ← get
  let (a, document) := step.run progress.document
  set { progress with document }
  return a

/-- Put a node under a key of an object: in place of the old one, or behind all
others. -/
def setChild (key : Text) (child : Nat) : List (Text × Nat) → List (Text × Nat)
  | [] => [(key, child)]
  | (k, c) :: rest => if k = key then (k, child) :: rest else (k, c) :: setChild key child rest

/-- The entries of the value that a node stands for. -/
def entriesOf (node : Nat) : Restricting (List (Text × Json)) := do
  match (← get).document.value node with
  | .obj entries => return entries
  | _ => return []

/-- Give a node the name that it has in a language. -/
def applyAlias (language : Text) (node : Nat) : Restricting Unit := do
  match ← alias? language (← entriesOf node), (← get).document.cell node with
  | some name, .object entries =>
    onDocument do
      let name ← Document.add (.leaf (.str name))
      modify (·.put node (.object (setChild "name" name entries)))
  | _, _ => pure ()

/-- Give a node the type that it has in a language. -/
def applyType (language : Text) (node : Nat) : Restricting Unit := do
  match ← givenType? language (← entriesOf node), (← get).document.cell node with
  | some (.str name), .object entries =>
    onDocument do
      let name ← Document.add (.leaf (.str name))
      let type ← Document.add (.object [("name", name)])
      modify (·.put node (.object (setChild "type" type entries)))
  | some _, .object entries =>
    let document := (← get).document
    let given := ((document.child? "langs" node).bind (document.child? "types")).bind
      (document.child? language)
    match given with
    | some type => onDocument (modify (·.put node (.object (setChild "type" type entries))))
    | none => pure ()
  | _, _ => pure ()

/-- Restrict a node with a step if it is for the language, and say whether it is. -/
def keepNode (language : Text) (step : Nat → Restricting Unit) (node : Nat) : Restricting Bool := do
  if ← isAvailable language ((← get).document.value node) then
    step node
    return true
  else
    modify fun progress => { progress with dropped := progress.dropped + 1 }
    return false

/-- Restrict a node and what is below it, as deep as the first argument says. -/
def restrictNode (language : Text) : Nat → Nat → Restricting Unit
  | 0, _ => pure ()
  | depth + 1, node => do
    match (← get).document.cell node with
    | .leaf _ => pure ()
    | .list items =>
      let kept ← items.filterM (keepNode language (restrictNode language depth))
      onDocument (modify (·.put node (.list kept)))
    | .object _ =>
      applyAlias language node
      applyType language node
      match (← get).document.cell node with
      | .object entries =>
        let kept ← entries.filterM fun (_, child) =>
          keepNode language (restrictNode language depth) child
        onDocument (modify (·.put node (.object kept)))
      | _ => pure ()

/-- A description restricted to a language, and how many nodes were dropped. -/
def restrictShared (language : Text) (tree : Json) : Except Failure (Json × Nat) := do
  let (root, document) := (Document.addTree tree).run .empty
  let ((), progress) ← (restrictNode language document.cells.size root).run ⟨document, 0⟩
  return (progress.document.value root, progress.dropped)

end Availability
end ApiBindings
