import ApiBindings.Java.Spelling
import ApiBindings.Nominal.Catalogue
import ApiBindings.Schema.Expression
import ApiBindings.Settings
/-!
# Resolving types

A type of the description is resolved for its owner: the method, parameter,
property or event that it types.  Resolving may add nominal types to the
catalogue, and what was added stays also when the resolution fails later on.

A type is resolved once.  Its result is remembered under its address, which
tells two occurrences of one and the same type apart, and is returned whenever
the same address is resolved again.  Only the first record below an address
becomes a class, so the address and a position identify a property of it.
-/

namespace ApiBindings

/-- What a type is the type of. -/
inductive OwnerKind where
  | method
  | param
  | field
  | event
deriving DecidableEq, Repr

/-- The member, parameter or property that a type belongs to. -/
structure Owner where
  /-- The path, under which a replaced type is looked up. -/
  path : Text
  kind : OwnerKind
  name : Text
  /-- The name of the member or class that the owner belongs to. -/
  parentName : Text
  /-- The interface around the owner. -/
  interface : Text
deriving DecidableEq, Repr

/-- The property of a class that is made for this owner. -/
def Owner.property (owner : Owner) (path name className : Text) : Owner :=
  { owner with path, kind := .field, name, parentName := className }

/-- The identity of an occurrence of a type. -/
abbrev Address := List Nat

/-- The address of a property of the record that is found at an address. -/
def Address.property (address : Address) (position : Nat) : Address :=
  position :: address

/-- What resolving has found out so far. -/
structure Knowledge where
  catalogue : Catalogue
  /-- The results by address. -/
  resolved : List (Address × TypeRef)
deriving Repr

def Knowledge.empty : Knowledge := ⟨.empty, []⟩

/-- A step of resolving: it adds to what is known, also when it fails. -/
abbrev Resolving := ExceptT Failure (StateM Knowledge)

namespace Resolving

/-- Fail, or go on with a result. -/
def ofExcept {α : Type} : Except Failure α → Resolving α
  | .ok a => pure a
  | .error failure => throw failure

/-- Do something to the catalogue; if it fails the catalogue stays as it is. -/
def onCatalogue {α : Type} (step : Catalogue → Except Failure (α × Catalogue)) : Resolving α := do
  let known ← get
  match step known.catalogue with
  | .ok (a, catalogue) =>
    set { known with catalogue }
    pure a
  | .error failure => throw failure

/-- Let an owner have local classes. -/
def openOwner (owner : Option Text) : Resolving Unit :=
  modify fun known => { known with catalogue := known.catalogue.openOwner (owner.getD []) }

end Resolving

/-- Register a class.  The owner of a local class is opened also when that fails. -/
def registerClass (new : ClassType) : Resolving ClassType := do
  if new.scope = .ownerLocal then Resolving.openOwner new.owner
  Resolving.onCatalogue (·.addClass new)

/-- Create or find a class.  A local class that exists already is taken without
looking at its fields again. -/
def classFor (name : Json) (path : Text) (scope : Scope) (owner : Option Text) (isReturnType : Bool)
    (fields : Resolving (List Field)) : Resolving ClassType := do
  let existing? ← match scope with
    | .ownerLocal => do
      Resolving.openOwner owner
      if !name.isKey then throw .wrongKind
      pure ((← get).catalogue.local? (owner.getD []) name)
    | .global => pure none
  match existing? with
  | some existing => pure existing
  | none =>
    let fields ← fields
    registerClass
      { name, fields, scope, path, isReturnType
        owner := if scope = .ownerLocal then owner else none }

/-- The class that a record becomes for an owner. -/
structure ClassPlan where
  name : Json
  scope : Scope
  owner : Option Text
  isReturnType : Bool
deriving Repr

/-- A record is a global class, named after its owner, unless it is the type of
an event or of the options of a method. -/
def ClassPlan.of (settings : Settings) (owner : Owner) : Except Failure ClassPlan :=
  if owner.kind = .method ∨ owner.kind = .field ∨ (owner.kind = .param ∧ owner.name ≠ "options") then do
    let name ← settings.className owner.name
    return { name, scope := .global, owner := none, isReturnType := owner.kind = .method }
  else
    .ok {
      name := .str (Text.capitalizeFirst owner.parentName ++ Text.capitalizeFirst owner.name)
      scope := .ownerLocal
      owner := some owner.interface
      isReturnType := false }

/-- The reference to a planned class. -/
def ClassPlan.ref (plan : ClassPlan) : TypeRef :=
  .mk .classType plan.name plan.scope plan.owner false []

/-- The type that replaces the one at a path, if one is set and the canonical
expression is the expected one. -/
def replacement? (settings : Settings) (path expression : Text) :
    Except Failure (Option TypeRef) := do
  match ← settings.override? path with
  | none => return none
  | some o =>
    if !o.source.isText expression then
      throw ((Cause.overrideMismatch o.source expression).atPath path)
    return some (if o.kind.isText "enum" then .enum o.target else .globalClass o.target)

/-- Resolve the type at an address: from memory, from the settings, or by
deriving it; and remember the result. -/
def resolveOnce (settings : Settings) (owner : Owner) (address : Address) (expression : Text)
    (derived : Resolving TypeRef) : Resolving TypeRef := do
  match (← get).resolved.lookup address with
  | some ref => pure ref
  | none =>
    let ref ← match ← Resolving.ofExcept (replacement? settings owner.path expression) with
      | some ref => pure ref
      | none => derived
    modify fun known => { known with resolved := (address, ref) :: known.resolved }
    pure ref

/-- The maps named `Object` that are mappings from texts. -/
def objectMaps : List Text := ["Object<string, string>", "Object<string, any>"]

/-- Where a type stands within the type of its owner: outermost, promises
aside, or inside. -/
inductive Depth where
  | outer
  | inner
deriving DecidableEq, Repr

mutual

/-- Derive the reference for a type.  With `fixed`, arrays are written as Java
arrays, because overloads cannot be told apart by the elements of a list.  The
class made from the first record below the address, if there is one already, is
taken along and handed on. -/
def convert (settings : Settings) (owner : Owner) (address : Address) (depth : Depth) (fixed : Bool)
    (madeClass : Option TypeRef) : TypeNode → Resolving (TypeRef × Option TypeRef)
  | .primitive name path =>
    if name = "null" then throw (Cause.nullOutsideUnion.atPath path)
    else pure (.builtin (Java.primitive name), madeClass)
  | .array _ element => do
    let (element, madeClass) ← convert settings owner address .inner fixed madeClass element
    if fixed then pure (.builtin (Java.arrayOf element.name), madeClass)
    else do
      let spelling ← Resolving.ofExcept (Java.listOf element.name)
      pure (.builtin spelling, madeClass)
  | .map name path key value => do
    let expression := TypeNode.expression (.map name path key value)
    if name = "Object" ∧ !objectMaps.contains expression then
      throw ((Cause.unsupportedMap expression).atPath path)
    else
      let (key, madeClass) ← convert settings owner address .inner false madeClass key
      let (value, madeClass) ← convert settings owner address .inner false madeClass value
      let spelling ← Resolving.ofExcept (Java.mapOf key.name value.name)
      pure (.builtin spelling, madeClass)
  | .generic name path args =>
    match args with
    | [arg] =>
      if name = "Promise" then convert settings owner address depth fixed madeClass arg
      else throw ((Cause.noMapping (TypeNode.expression (.generic name path [arg]))).atPath path)
    | args => throw ((Cause.noMapping (TypeNode.expression (.generic name path args))).atPath path)
  | .bareFunction path result =>
    throw ((Cause.noMapping (TypeNode.expression (.bareFunction path result))).atPath path)
  | .function path args result =>
    match args with
    | [arg] => do
      let (arg, madeClass) ← convert settings owner address .inner false madeClass arg
      match TypeNode.functionRole result with
      | .consumer => do
        let spelling ← Resolving.ofExcept (Java.consumerOf arg.name)
        pure (.builtin spelling, madeClass)
      | .predicate => do
        let spelling ← Resolving.ofExcept (Java.predicateOf arg.name)
        pure (.builtin spelling, madeClass)
      | .other =>
        throw ((Cause.noMapping (TypeNode.expression (.function path args result))).atPath path)
    | args => throw ((Cause.noMapping (TypeNode.expression (.function path args result))).atPath path)
  | .union name path members =>
    if name ≠ "" then do
      let enum ← Resolving.onCatalogue (·.enumFor name path members)
      pure (.enum (.str enum.name), madeClass)
    else
      let unnamed : Resolving (TypeRef × Option TypeRef) :=
        throw ((Cause.unnamedUnion (TypeNode.expression (.union name path members))).atPath path)
      match depth, owner.kind with
      | .inner, .field => pure (.builtin Java.objectType, madeClass)
      | .inner, _ => unnamed
      | .outer, kind =>
        if (TypeNode.nullableMember? members).isSome then do
          let (ref, madeClass) ← convertNullable settings owner address madeClass members
          pure (ref.asNullable, madeClass)
        else
          match kind with
          | .param => do
            let arrays := (TypeNode.variants members).countP TypeNode.isArray
            let (variants, madeClass) ←
              convertVariants settings owner address (decide (1 < arrays)) madeClass members
            pure (.union [] variants, madeClass)
          | .field => do
            let (variants, madeClass) ← convertVariants settings owner address false madeClass members
            pure (madeClass.getD (.union Java.objectType variants), madeClass)
          | _ => unnamed
  | .record path properties =>
    match madeClass with
    | some ref => pure (ref, some ref)
    | none => do
      let plan ← Resolving.ofExcept (ClassPlan.of settings owner)
      let _ ← classFor plan.name path plan.scope plan.owner plan.isReturnType
        (convertFields settings owner address plan.name.display 0 properties)
      pure (plan.ref, some plan.ref)

/-- Derive the reference for the first member that is neither null nor a bare
function. -/
def convertNullable (settings : Settings) (owner : Owner) (address : Address)
    (madeClass : Option TypeRef) : List TypeNode → Resolving (TypeRef × Option TypeRef)
  | [] => pure (.builtin Java.voidType, madeClass)
  | member :: rest =>
    if member.isVariant then convert settings owner address .inner false madeClass member
    else convertNullable settings owner address madeClass rest

/-- Derive the references for the members that get overloads of their own. -/
def convertVariants (settings : Settings) (owner : Owner) (address : Address) (fixed : Bool)
    (madeClass : Option TypeRef) : List TypeNode → Resolving (List TypeRef × Option TypeRef)
  | [] => pure ([], madeClass)
  | member :: rest =>
    if member.isVariant then do
      let (ref, madeClass) ← convert settings owner address .inner fixed madeClass member
      let (refs, madeClass) ← convertVariants settings owner address fixed madeClass rest
      pure (ref :: refs, madeClass)
    else convertVariants settings owner address fixed madeClass rest

/-- Resolve the properties of a record from this position on into the fields of
its class. -/
def convertFields (settings : Settings) (owner : Owner) (address : Address) (className : Text)
    (position : Nat) : List (Slot TypeNode) → Resolving (List Field)
  | [] => pure []
  | ⟨name, path, type, required, comment⟩ :: rest => do
    let owner' := owner.property path name className
    let address' := address.property position
    let ref ← resolveOnce settings owner' address' type.expression do
      let (ref, _) ← convert settings owner' address' .outer false none type
      pure ref
    let fields ← convertFields settings owner address className (position + 1) rest
    pure ({ name, type := some ref, required, comment } :: fields)

end

/-- Resolve the type at an address for its owner. -/
def resolveType (settings : Settings) (owner : Owner) (address : Address) (type : TypeNode) :
    Resolving TypeRef :=
  resolveOnce settings owner address type.expression do
    let (ref, _) ← convert settings owner address .outer false none type
    pure ref

/-- Resolve the type at an address, where no type is that of nothing. -/
def resolve (settings : Settings) (owner : Owner) (address : Address) :
    Option TypeNode → Resolving TypeRef
  | none => pure (.builtin Java.voidType)
  | some type => resolveType settings owner address type

end ApiBindings
