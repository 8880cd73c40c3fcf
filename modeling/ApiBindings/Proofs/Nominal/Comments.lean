import ApiBindings.Proofs.Nominal.Growth
import ApiBindings.Proofs.Schema.Comments
/-!
# The catalogue without comments

Nothing is looked up in the catalogue by a comment, and no two definitions are
compared by their comments.  So every operation on the catalogue without its
comments ends as it does on the whole one, with the same messages.
-/

namespace ApiBindings

def Field.uncommented (field : Field) : Field :=
  { field with comment := .null }

def ClassType.uncommented (type : ClassType) : ClassType :=
  { type with fields := type.fields.map Field.uncommented }

def NominalType.uncommented : NominalType → NominalType
  | .ofClass type => .ofClass type.uncommented
  | .ofEnum type => .ofEnum type

/-- The catalogue with no comments on the fields of its classes. -/
def Catalogue.uncommented (catalogue : Catalogue) : Catalogue where
  globals := catalogue.globals.map NominalType.uncommented
  locals := catalogue.locals.map fun (owner, classes) => (owner, classes.map ClassType.uncommented)

namespace ClassType

@[simp] theorem name_uncommented (type : ClassType) : type.uncommented.name = type.name := rfl

@[simp] theorem scope_uncommented (type : ClassType) : type.uncommented.scope = type.scope := rfl

@[simp] theorem owner_uncommented (type : ClassType) : type.uncommented.owner = type.owner := rfl

@[simp] theorem path_uncommented (type : ClassType) : type.uncommented.path = type.path := rfl

@[simp] theorem fields_uncommented (type : ClassType) :
    type.uncommented.fields = type.fields.map Field.uncommented := rfl

end ClassType

@[simp] theorem Field.signature_uncommented (field : Field) :
    field.uncommented.signature = field.signature := rfl

@[simp] theorem ClassType.signature_uncommented (type : ClassType) :
    type.uncommented.signature = type.signature := by
  simp [ClassType.signature, ClassType.uncommented, Function.comp_def]

@[simp] theorem ClassType.agrees_uncommented (a b : ClassType) :
    a.uncommented.agrees b.uncommented = a.agrees b := by
  unfold ClassType.agrees
  rw [signature_uncommented, signature_uncommented]
  simp [ClassType.uncommented]

namespace NominalType

@[simp] theorem name_uncommented (type : NominalType) : type.uncommented.name = type.name := by
  cases type <;> rfl

@[simp] theorem path_uncommented (type : NominalType) : type.uncommented.path = type.path := by
  cases type <;> rfl

@[simp] theorem describe_uncommented (type : NominalType) :
    type.uncommented.describe = type.describe := by
  cases type with
  | ofEnum type => rfl
  | ofClass type =>
      have hfields : type.uncommented.fields.map describeField = type.fields.map describeField := by
        simp [ClassType.uncommented, Function.comp_def, describeField, Field.uncommented]
      simp only [uncommented, describe, hfields]

end NominalType

namespace Catalogue

theorem global?_uncommented (catalogue : Catalogue) (name : Json) :
    catalogue.uncommented.global? name =
      (catalogue.global? name).map NominalType.uncommented := by
  unfold global? uncommented
  rw [List.find?_map]
  simp only [Function.comp_def, NominalType.name_uncommented]

theorem lookUp_uncommented (catalogue : Catalogue) (name : Json) :
    catalogue.uncommented.lookUp name =
      (catalogue.lookUp name).map (Option.map NominalType.uncommented) := by
  unfold lookUp
  split
  next => rw [global?_uncommented]; rfl
  next => rfl

theorem localClasses_uncommented (catalogue : Catalogue) (owner : Text) :
    catalogue.uncommented.localClasses owner =
      (catalogue.localClasses owner).map ClassType.uncommented := by
  unfold localClasses uncommented
  induction catalogue.locals with
  | nil => rfl
  | cons entry rest ih =>
      obtain ⟨o, classes⟩ := entry
      rw [List.map_cons, Text.find?_cons, Text.find?_cons]
      split
      next => rfl
      next => exact ih

theorem local?_uncommented (catalogue : Catalogue) (owner : Text) (name : Json) :
    catalogue.uncommented.local? owner name =
      (catalogue.local? owner name).map ClassType.uncommented := by
  unfold local?
  rw [localClasses_uncommented, List.find?_map]
  rfl

theorem addGlobal_uncommented (catalogue : Catalogue) (type : NominalType) :
    catalogue.uncommented.addGlobal type.uncommented = (catalogue.addGlobal type).uncommented := by
  simp [addGlobal, uncommented]

theorem updateOwner_uncommented (owner : Text) (change change' : List ClassType → List ClassType)
    (hchange : ∀ classes, change' (classes.map ClassType.uncommented) =
      (change classes).map ClassType.uncommented) (locals : List (Text × List ClassType)) :
    updateOwner owner change' (locals.map fun (owner, classes) =>
        (owner, classes.map ClassType.uncommented)) =
      (updateOwner owner change locals).map fun (owner, classes) =>
        (owner, classes.map ClassType.uncommented) := by
  induction locals with
  | nil => simpa [updateOwner] using hchange []
  | cons entry rest ih =>
      obtain ⟨o, classes⟩ := entry
      rw [List.map_cons, updateOwner, updateOwner]
      split
      next => rw [List.map_cons, hchange]
      next => rw [List.map_cons, ih]

theorem openOwner_uncommented (catalogue : Catalogue) (owner : Text) :
    catalogue.uncommented.openOwner owner = (catalogue.openOwner owner).uncommented := by
  have hlocals := updateOwner_uncommented owner id id (fun _ => rfl) catalogue.locals
  simp only [openOwner, uncommented, hlocals]

theorem addLocal_uncommented (catalogue : Catalogue) (owner : Text) (type : ClassType) :
    catalogue.uncommented.addLocal owner type.uncommented =
      (catalogue.addLocal owner type).uncommented := by
  have hlocals := updateOwner_uncommented owner (· ++ [type]) (· ++ [type.uncommented])
    (fun classes => by simp) catalogue.locals
  simp only [addLocal, uncommented, hlocals]

theorem addClass_uncommented (catalogue : Catalogue) (new : ClassType) :
    catalogue.uncommented.addClass new.uncommented =
      (catalogue.addClass new).map (Prod.map ClassType.uncommented Catalogue.uncommented) := by
  have hnew : (NominalType.ofClass new).uncommented = .ofClass new.uncommented := rfl
  unfold addClass
  simp only [ClassType.name_uncommented, ClassType.scope_uncommented,
    ClassType.owner_uncommented, ClassType.path_uncommented, local?_uncommented,
    global?_uncommented, addLocal_uncommented, ← hnew, addGlobal_uncommented,
    NominalType.describe_uncommented]
  split
  next => rfl
  next =>
    cases new.scope with
    | ownerLocal => cases catalogue.local? (new.owner.getD []) new.name <;> rfl
    | global =>
        cases catalogue.global? new.name with
        | none => rfl
        | some existing =>
            dsimp only [Option.map]
            rw [NominalType.describe_uncommented, NominalType.path_uncommented]
            cases existing with
            | ofEnum type => rfl
            | ofClass type =>
                dsimp only [NominalType.uncommented]
                rw [ClassType.agrees_uncommented]
                split <;> rfl

theorem enumValues_uncommented (enum path : Text) (members : List TypeNode) (done : List Text) :
    enumValues enum path done (TypeNode.uncommentedTypes members) =
      enumValues enum path done members := by
  induction members generalizing done with
  | nil => rfl
  | cons member rest ih =>
      simp only [TypeNode.uncommentedTypes, enumValues, TypeNode.name_uncommented,
        TypeNode.isNull_uncommented, ih]

theorem addEnum_uncommented (catalogue : Catalogue) (new : EnumType) :
    catalogue.uncommented.addEnum new =
      (catalogue.addEnum new).map (Prod.map id Catalogue.uncommented) := by
  have hadded : catalogue.uncommented.addGlobal (.ofEnum new) =
      (catalogue.addGlobal (.ofEnum new)).uncommented :=
    addGlobal_uncommented catalogue (.ofEnum new)
  unfold addEnum
  rw [global?_uncommented]
  cases catalogue.global? (.str new.name) with
  | none => exact congrArg (fun after => Except.ok (new, after)) hadded
  | some existing =>
      dsimp only [Option.map]
      rw [NominalType.describe_uncommented]
      cases existing with
      | ofClass type => rfl
      | ofEnum type =>
          dsimp only [NominalType.uncommented]
          split <;> rfl

theorem enumFor_uncommented (catalogue : Catalogue) (name path : Text) (members : List TypeNode) :
    catalogue.uncommented.enumFor name path (TypeNode.uncommentedTypes members) =
      (catalogue.enumFor name path members).map (Prod.map id Catalogue.uncommented) := by
  unfold enumFor
  rw [enumValues_uncommented]
  split
  next => rfl
  next =>
    cases enumValues name path [] members with
    | error failure => rfl
    | ok values => exact addEnum_uncommented catalogue _

end Catalogue
end ApiBindings
