import ApiBindings.Failure
import ApiBindings.Java.Spelling
import ApiBindings.Schema.TypeNode
import ApiBindings.Surface.Basic
import ApiBindings.Text.Naming
/-!
# Overloads

Java has neither union types nor default arguments.  A parameter that is a
union of several variants gives a block of overloads for each variant, and in
each block every optional parameter gives an overload without it, which calls
the overload that is longer by one parameter.
-/

namespace ApiBindings
namespace Surface

/-- What overloads say about their member. -/
structure MemberInfo where
  name : Text
  comment : Json
  returnComment : Json
deriving Repr

/-- What overloads say about a member of the description. -/
def MemberInfo.of (member : Member) : MemberInfo where
  name := member.name
  comment := member.comment
  returnComment := member.returnComment

/-- A parameter with its resolved type. -/
structure ResolvedParam where
  name : Text
  path : Text
  required : Bool
  comment : Json
  type : TypeRef
deriving Repr

/-- The parameter that the overloads are chosen by: the first union of several
variants. -/
def drivingParam? (params : List ResolvedParam) : Option Nat :=
  params.findIdx? fun p => p.type.isUnion && decide (1 < p.type.variants.length)

/-- A parameter as one block of overloads has it. -/
structure BlockParam where
  name : Text
  type : Json
  required : Bool
  comment : Json
deriving Repr

def BlockParam.declaration (p : BlockParam) : Param where
  name := p.name
  type := p.type
  comment := p.comment

/-- The type of a parameter in one block, where `choice` is the variant chosen
for the driving parameter if this is it.  Any other union must have exactly one
variant. -/
def blockType (choice : Option TypeRef) (p : ResolvedParam) : Except Failure Json :=
  if !p.type.isUnion then .ok p.type.name
  else
    match choice, p.type.variants with
    | some variant, _ => .ok variant.name
    | none, [variant] => .ok variant.name
    | none, _ => .error ((Cause.secondUnionParameter p.name).atPath p.path)

/-- The parameters of one block from this position on. -/
def blockParams (choice : Option (Nat × TypeRef)) (position : Nat) :
    List ResolvedParam → Except Failure (List BlockParam)
  | [] => .ok []
  | p :: rest => do
    let chosen := match choice with
      | some (driver, variant) => if driver = position then some variant else none
      | none => none
    let type ← blockType chosen p
    let others ← blockParams choice (position + 1) rest
    return { name := p.name, type, required := p.required, comment := p.comment } :: others

/-- The overload that omits one optional parameter and the optional ones after
it, and calls the next longer overload. -/
def omitting (member : MemberInfo) (returnType : Json) (before : List BlockParam)
    (omitted : BlockParam) (after : List BlockParam) : Overload :=
  let kept := after.filter (·.required)
  { name := member.name
    returnType
    params := (before ++ kept).map BlockParam.declaration
    delegateArgs := some (before.map (·.name) ++ Java.placeholderFor omitted.type :: kept.map (·.name))
    signature := .null
    comment := member.comment
    returnComment := member.returnComment }

/-- The overloads that omit an optional parameter, the last one first. -/
def defaultOverloads (member : MemberInfo) (returnType : Json) (before : List BlockParam) :
    List BlockParam → List Overload
  | [] => []
  | p :: after =>
    defaultOverloads member returnType (before ++ [p]) after ++
      (if p.required then [] else [omitting member returnType before p after])

/-- The overload with all parameters. -/
def fullOverload (member : MemberInfo) (returnType : Json) (params : List BlockParam) : Overload where
  name := member.name
  returnType
  params := params.map BlockParam.declaration
  delegateArgs := none
  signature := .null
  comment := member.comment
  returnComment := member.returnComment

/-- The overloads of one block. -/
def overloadBlock (member : MemberInfo) (returnType : Json) (params : List BlockParam) : List Overload :=
  defaultOverloads member returnType [] params ++ [fullOverload member returnType params]

/-- What is chosen in each block: a variant of the driving parameter, if there
is one. -/
def blockChoices (params : List ResolvedParam) : List (Option (Nat × TypeRef)) :=
  match drivingParam? params with
  | none => [none]
  | some driver =>
    match params[driver]? with
    | some p => p.type.variants.map fun variant => some (driver, variant)
    | none => [none]

/-- The blocks of overloads of a method, one for each choice. -/
def blocksFor (member : MemberInfo) (returnType : Json) (params : List ResolvedParam) :
    List (Option (Nat × TypeRef)) → Except Failure (List (List Overload))
  | [] => .ok []
  | choice :: rest => do
    let block ← blockParams choice 0 params
    let others ← blocksFor member returnType params rest
    return overloadBlock member returnType block :: others

/-- The blocks of overloads of a method. -/
def overloadBlocks (member : MemberInfo) (returnType : TypeRef) (params : List ResolvedParam) :
    Except Failure (List (List Overload)) :=
  blocksFor member returnType.name params (blockChoices params)

/-- All overloads of a method. -/
def overloads (member : MemberInfo) (returnType : TypeRef) (params : List ResolvedParam) :
    Except Failure (List Overload) := do
  let blocks ← overloadBlocks member returnType params
  return blocks.flatten

/-- The overloads for hand-written signatures.  What is said about the member
goes with the last one. -/
def writtenOverloads (member : MemberInfo) (params : List ResolvedParam) : List Json → List Overload
  | [] => []
  | [signature] =>
    [{ name := member.name
       returnType := .str Java.voidType
       params := params.map fun p => { name := p.name, type := p.type.name, comment := p.comment }
       delegateArgs := none
       signature
       comment := member.comment
       returnComment := member.returnComment }]
  | signature :: rest =>
    { name := member.name
      returnType := .str Java.voidType
      params := []
      delegateArgs := none
      signature
      comment := .str ""
      returnComment := .null } :: writtenOverloads member params rest

/-- The listener for an event of this type. -/
def Listener.of (member : MemberInfo) (type : TypeRef) : Except Failure Listener := do
  let handlerType ← Java.consumerOf type.name
  return { event := Text.capitalizeFirst member.name, handlerType, comment := member.comment }

end Surface
end ApiBindings
