import ApiBindings.Failure
/-!
# Availability

A node of the description may say under `langs` which target languages it is
for, how it is called in one of them and which type it has there.  Restricting
a description to one language drops the nodes that are not for it and applies
the names and types given for it, before anything else is read.

A type given for the language stands both under `langs` and as the type of the
node.  It is one and the same object, so what is dropped inside it counts once.
-/

namespace ApiBindings
namespace Availability

/-- What a node says about languages. -/
def langs? (entries : List (Text × Json)) : Option (List (Text × Json)) :=
  match Text.find? "langs" entries with
  | some (.obj langs) => some langs
  | _ => none

/-- A cause at a node, located by whatever the node has for a name. -/
def failure (cause : Cause) (entries : List (Text × Json)) : Failure :=
  .diagnosed ⟨cause, (Text.find? "name" entries).getD (.str "")⟩

/-- Whether a node is for a language.  Only a list of languages that is not
empty restricts a node. -/
def isAvailable (language : Text) : Json → Except Failure Bool
  | .obj entries =>
    match (langs? entries).bind (Text.find? "only") with
    | none => .ok true
    | some (.arr allowed) => .ok (allowed.isEmpty || allowed.any (Json.isText language))
    | some other => .error (failure (.onlyNotAList other) entries)
  | _ => .ok true

/-- The name that a node has in a language, if it has one of its own there. -/
def alias? (language : Text) (entries : List (Text × Json)) : Except Failure (Option Text) :=
  match (langs? entries).bind (Text.find? "aliases") with
  | none => .ok none
  | some (.obj aliases) =>
    match Text.find? language aliases with
    | none | some .null => .ok none
    | some (.str name) =>
      if name = "" then .error (failure (.badAlias language (.str name)) entries) else .ok (some name)
    | some other => .error (failure (.badAlias language other) entries)
  | some other => .error (failure (.aliasesNotAnObject other) entries)

/-- The type that a node has in a language, if it has one of its own there.  A
text stands for the type of that name. -/
def givenType? (language : Text) (entries : List (Text × Json)) : Except Failure (Option Json) :=
  match (langs? entries).bind (Text.find? "types") with
  | none => .ok none
  | some (.obj types) =>
    match Text.find? language types with
    | none | some .null => .ok none
    | some (.str name) => .ok (some (.str name))
    | some other =>
      match other.get? "name" with
      | some (.str _) => .ok (some other)
      | _ => .error (failure (.overrideWithoutName language other) entries)
  | some other => .error (failure (.typesNotAnObject other) entries)

/-- Whether restricting a node gets to the types it declares per language. -/
def reachesTypes (language : Text) (entries : List (Text × Json)) : Bool :=
  match langs? entries with
  | none => false
  | some langs =>
    match isAvailable language (.obj langs), Text.find? "types" langs with
    | .ok true, some types =>
      match isAvailable language types with
      | .ok available => available
      | .error _ => false
    | _, _ => false

/-- What becomes of one entry: its value, unless it is dropped, and how many
nodes were dropped. -/
abbrev Outcome := Except Failure (Option Json × Nat)

/-- An entry put behind the others, unless it is dropped. -/
def appended (key : Text) (outcome : Outcome) : Except Failure (List (Text × Json) × Nat) := do
  let (value?, dropped) ← outcome
  return ((value?.map fun value => (key, value)).toList, dropped)

mutual

/-- Restrict the value that a list of keys leads to. -/
def restrictAt (language : Text) : List Text → Json → Except Failure (Json × Nat)
  | [], .arr items => do
    let (items, dropped) ← restrictItems language items
    return (.arr items, dropped)
  | [], .obj entries => do
    let name ← alias? language entries
    let renamed := match name with
      | some name => Json.setEntry "name" (.str name) entries
      | none => entries
    let type : Option Outcome := match ← givenType? language renamed with
      | none => none
      | some (.str name) => some (.ok (some (.obj [("name", .str name)]), 0))
      | some given => some do
        if ← isAvailable language given then
          let (given, dropped) ← restrictEntry language "langs" ["types", language] entries
          return (some given, if reachesTypes language entries then 0 else dropped)
        else return (none, 1)
    let name : Option Outcome := name.map fun name => .ok (some (.str name), 0)
    let (kept, dropped) ← restrictEntries language name type entries
    let (ownName, _) ← match name, Text.find? "name" entries with
      | some outcome, none => appended "name" outcome
      | _, _ => .ok ([], 0)
    let (ownType, droppedType) ← match type, Text.find? "type" entries with
      | some outcome, none => appended "type" outcome
      | _, _ => .ok ([], 0)
    return (.obj (kept ++ ownName ++ ownType), dropped + droppedType)
  | [], value => .ok (value, 0)
  | key :: keys, .obj entries => restrictEntry language key keys entries
  | _ :: _, value => .ok (value, 0)

/-- Restrict the items of a list. -/
def restrictItems (language : Text) : List Json → Except Failure (List Json × Nat)
  | [] => .ok ([], 0)
  | item :: rest => do
    if ← isAvailable language item then
      let (item, dropped) ← restrictAt language [] item
      let (others, droppedOthers) ← restrictItems language rest
      return (item :: others, dropped + droppedOthers)
    else
      let (others, droppedOthers) ← restrictItems language rest
      return (others, 1 + droppedOthers)

/-- Restrict the entries of an object, of which the name and the type may be
settled already. -/
def restrictEntries (language : Text) (name type : Option Outcome) :
    List (Text × Json) → Except Failure (List (Text × Json) × Nat)
  | [] => .ok ([], 0)
  | (key, value) :: rest => do
    let settled := if key = "name" then name else if key = "type" then type else none
    let (value?, dropped) ← match settled with
      | some outcome => outcome
      | none =>
        if ← isAvailable language value then
          let (value, dropped) ← restrictAt language [] value
          pure (some value, dropped)
        else pure (none, 1)
    let (others, droppedOthers) ← restrictEntries language name type rest
    return ((value?.map fun value => (key, value)).toList ++ others, dropped + droppedOthers)

/-- Restrict the value that an entry and then a list of keys leads to. -/
def restrictEntry (language key : Text) (keys : List Text) :
    List (Text × Json) → Except Failure (Json × Nat)
  | [] => .ok (.null, 0)
  | (k, value) :: rest =>
    if k = key then restrictAt language keys value else restrictEntry language key keys rest

end

/-- A description restricted to a language, and how many nodes were dropped.
The description itself is never dropped. -/
def restrictTree (language : Text) (tree : Json) : Except Failure (Json × Nat) :=
  restrictAt language [] tree

end Availability
end ApiBindings
