import ApiBindings.Proofs.Schema.Likeness
import ApiBindings.Schema.Expression
import ApiBindings.Schema.Reader
/-!
# Reading descriptions with different comments

Comments are carried along by what is read and decide nothing.  So two
descriptions that are alike up to comments read the same once what was read is
left without them, or neither can be read, for a reason of one family at one path.
-/

namespace ApiBindings

mutual

/-- The type with no comments on the properties of its records. -/
def TypeNode.uncommented : TypeNode → TypeNode
  | .primitive name path => .primitive name path
  | .array path element => .array path element.uncommented
  | .map name path key value => .map name path key.uncommented value.uncommented
  | .union name path members => .union name path (uncommentedTypes members)
  | .generic name path args => .generic name path (uncommentedTypes args)
  | .bareFunction path none => .bareFunction path none
  | .bareFunction path (some result) => .bareFunction path (some result.uncommented)
  | .function path args none => .function path (uncommentedTypes args) none
  | .function path args (some result) =>
    .function path (uncommentedTypes args) (some result.uncommented)
  | .record path properties => .record path (uncommentedSlots properties)

def TypeNode.uncommentedTypes : List TypeNode → List TypeNode
  | [] => []
  | node :: rest => node.uncommented :: uncommentedTypes rest

def TypeNode.uncommentedSlots : List (Slot TypeNode) → List (Slot TypeNode)
  | [] => []
  | ⟨name, path, type, required, _⟩ :: rest =>
    ⟨name, path, type.uncommented, required, .null⟩ :: uncommentedSlots rest

end

/-- The slot with no comment on it or in its type. -/
def Slot.uncommented (slot : Slot TypeNode) : Slot TypeNode :=
  { slot with type := slot.type.uncommented, comment := .null }

/-- The member as if no comments had been given. -/
def Member.uncommented (member : Member) : Member :=
  { member with
    type := member.type.map TypeNode.uncommented
    params := member.params.map Slot.uncommented
    comment := .str ""
    returnComment := .null }

/-- The interface as if no comments had been given. -/
def Interface.uncommented (interface : Interface) : Interface :=
  { interface with comment := .str "", members := interface.members.map Member.uncommented }

namespace TypeNode

theorem uncommentedTypes_eq (nodes : List TypeNode) :
    uncommentedTypes nodes = nodes.map uncommented := by
  induction nodes with
  | nil => rfl
  | cons node rest ih => rw [uncommentedTypes, ih, List.map_cons]

theorem uncommentedSlots_eq (slots : List (Slot TypeNode)) :
    uncommentedSlots slots = slots.map Slot.uncommented := by
  induction slots with
  | nil => rfl
  | cons slot rest ih => rw [uncommentedSlots, ih, List.map_cons, Slot.uncommented]

@[simp] theorem name_uncommented (node : TypeNode) : node.uncommented.name = node.name := by
  unfold uncommented
  split <;> rfl

@[simp] theorem path_uncommented (node : TypeNode) : node.uncommented.path = node.path := by
  unfold uncommented
  split <;> rfl

@[simp] theorem isNull_uncommented (node : TypeNode) : node.uncommented.isNull = node.isNull := by
  unfold uncommented
  split <;> rfl

@[simp] theorem isBareFunction_uncommented (node : TypeNode) :
    node.uncommented.isBareFunction = node.isBareFunction := by
  unfold uncommented
  split <;> rfl

@[simp] theorem isArray_uncommented (node : TypeNode) :
    node.uncommented.isArray = node.isArray := by
  unfold uncommented
  split <;> rfl

@[simp] theorem isVariant_uncommented (node : TypeNode) :
    node.uncommented.isVariant = node.isVariant := by
  simp [isVariant]

theorem functionRole_uncommented (result : Option TypeNode) :
    functionRole (result.map uncommented) = functionRole result := by
  cases result with
  | none => rfl
  | some result =>
      cases result with
      | bareFunction path result => cases result <;> rfl
      | function path args result => cases result <;> rfl
      | _ => rfl

theorem filter_uncommented {keep : TypeNode → Bool}
    (hkeep : ∀ node : TypeNode, keep node.uncommented = keep node) (nodes : List TypeNode) :
    (nodes.map uncommented).filter keep = (nodes.filter keep).map uncommented := by
  have hsame : keep ∘ uncommented = keep := funext hkeep
  rw [List.filter_map, hsame]

theorem variants_uncommented (members : List TypeNode) :
    variants (uncommentedTypes members) = (variants members).map uncommented := by
  rw [uncommentedTypes_eq]
  exact filter_uncommented isVariant_uncommented members

theorem nullableMember?_uncommented (members : List TypeNode) :
    nullableMember? (uncommentedTypes members) = (nullableMember? members).map uncommented := by
  have hkept : (members.map uncommented).filter (fun m => !m.isBareFunction) =
      (members.filter fun m => !m.isBareFunction).map uncommented :=
    filter_uncommented (fun node => by rw [isBareFunction_uncommented]) members
  have hnull : isNull ∘ uncommented = isNull := funext isNull_uncommented
  have hother : (fun m : TypeNode => !m.isNull) ∘ uncommented = fun m => !m.isNull :=
    funext fun node => congrArg (!·) (isNull_uncommented node)
  unfold nullableMember?
  rw [uncommentedTypes_eq, hkept]
  dsimp only
  rw [List.length_map, List.any_map, List.find?_map, hnull, hother]
  split <;> rfl

mutual

theorem expression_uncommented (node : TypeNode) :
    node.uncommented.expression = node.expression := by
  cases node with
  | primitive name path => rfl
  | array path element => simp only [uncommented, expression, expression_uncommented element]
  | map name path key value =>
      simp only [uncommented, expression, expression_uncommented key, expression_uncommented value]
  | union name path members =>
      simp only [uncommented, expression, expressions_uncommented members]
  | generic name path args => simp only [uncommented, expression, expressions_uncommented args]
  | bareFunction path result => cases result <;> simp only [uncommented, expression]
  | function path args result =>
      cases result with
      | none => simp only [uncommented, expression, expressions_uncommented args]
      | some result =>
          simp only [uncommented, expression, expressions_uncommented args,
            expression_uncommented result]
  | record path properties => simp only [uncommented, expression]
termination_by structural node

theorem expressions_uncommented (nodes : List TypeNode) :
    expressions (uncommentedTypes nodes) = expressions nodes := by
  cases nodes with
  | nil => rfl
  | cons node rest =>
      simp only [uncommentedTypes, expressions, expression_uncommented node,
        expressions_uncommented rest]
termination_by structural nodes

end

end TypeNode

namespace Schema

open Availability (Alike AlikeItems AlikeEntries isNamingKey isCommentKey)

variable {language : Text}

/-- Two readings end alike: what is read is equal without its comments, or the
failures are of one family at the same path. -/
abbrev ReadAlike {α β : Type} (uncommented : α → β) : Except Failure α → Except Failure α → Prop :=
  Likewise Failure.SameSource fun a b => uncommented a = uncommented b

theorem sameSource_atPath {cause cause' : Cause} (path : Text)
    (hfamily : cause.family = cause'.family) :
    (cause.atPath path).SameSource (cause'.atPath path) :=
  ⟨hfamily, rfl⟩

theorem named_alike (allowEmpty : Bool) (path : Text) {value value' : Json}
    (hvalue : Alike .comments language value value') :
    Likewise Failure.SameSource
      (fun a b => AlikeEntries .comments language a.1 b.1 ∧ a.2 = b.2)
      (named allowEmpty path value) (named allowEmpty path value') := by
  cases hvalue with
  | obj hentries =>
      unfold named
      dsimp only
      rw [hentries.find?_naming "name" rfl]
      split
      next =>
        split
        next => exact .error (sameSource_atPath path rfl)
        next => exact .ok ⟨hentries, rfl⟩
      next => exact .error (sameSource_atPath path rfl)
  | _ => exact .error (sameSource_atPath path rfl)

theorem uncommentedTypes_length {nodes nodes' : List TypeNode}
    (hnodes : TypeNode.uncommentedTypes nodes = TypeNode.uncommentedTypes nodes') :
    nodes.length = nodes'.length := by
  simpa [TypeNode.uncommentedTypes_eq] using congrArg List.length hnodes

theorem templatedType_alike (name path : Text) {templates templates' : List TypeNode}
    (htemplates : TypeNode.uncommentedTypes templates = TypeNode.uncommentedTypes templates') :
    ReadAlike TypeNode.uncommented (templatedType name path templates)
      (templatedType name path templates') := by
  have hlength := uncommentedTypes_length htemplates
  unfold templatedType
  split
  next =>
    match templates, templates' with
    | [element], [element'] =>
        exact .ok (congrArg (TypeNode.array path) (List.cons.inj htemplates).1)
    | [], [] => exact .error (sameSource_atPath path rfl)
    | _ :: _ :: _, _ :: _ :: _ => exact .error (sameSource_atPath path rfl)
  next =>
    split
    next =>
      match templates, templates' with
      | [key, value], [key', value'] =>
          obtain ⟨hkey, hrest⟩ := List.cons.inj htemplates
          refine .ok ?_
          rw [TypeNode.uncommented, TypeNode.uncommented, hkey, (List.cons.inj hrest).1]
      | [], [] => exact .error (sameSource_atPath path rfl)
      | [_], [_] => exact .error (sameSource_atPath path rfl)
      | _ :: _ :: _ :: _, _ :: _ :: _ :: _ => exact .error (sameSource_atPath path rfl)
    next =>
      refine .ok ?_
      rw [TypeNode.uncommented, TypeNode.uncommented, htemplates]

/-! ## Types -/

theorem readTypesAt_eq (key path : Text) (entries : List (Text × Json)) :
    readTypesAt key path entries = match Text.find? key entries with
      | none | some .null => .ok []
      | some (.arr items) => readTypes path items
      | some data => .error ((Cause.notAList key data).atPath path) := by
  induction entries with
  | nil => rfl
  | cons entry rest ih =>
      obtain ⟨k, value⟩ := entry
      rw [Text.find?_cons]
      by_cases hkey : k = key
      · cases value <;> simp [readTypesAt, hkey]
      · cases value <;> simp [readTypesAt, hkey, Ne.symm hkey, ih]

theorem readTypeAt_eq (key path : Text) (entries : List (Text × Json)) :
    readTypeAt key path entries = match Text.find? key entries with
      | none | some .null => .ok none
      | some data => do return some (← readType path data) := by
  induction entries with
  | nil => rfl
  | cons entry rest ih =>
      obtain ⟨k, value⟩ := entry
      rw [Text.find?_cons]
      by_cases hkey : k = key
      · cases value <;> simp [readTypeAt, hkey]
      · cases value <;> simp [readTypeAt, hkey, Ne.symm hkey, ih]

theorem readSlotsAt_eq (key path : Text) (entries : List (Text × Json)) :
    readSlotsAt key path entries = match Text.find? key entries with
      | none | some .null => .ok []
      | some (.arr items) => readSlots .property path items
      | some data => .error ((Cause.notAList key data).atPath path) := by
  induction entries with
  | nil => rfl
  | cons entry rest ih =>
      obtain ⟨k, value⟩ := entry
      rw [Text.find?_cons]
      by_cases hkey : k = key
      · cases value <;> simp [readSlotsAt, hkey]
      · cases value <;> simp [readSlotsAt, hkey, Ne.symm hkey, ih]

/-- What is alike to a value reads as the same type. -/
def ReadsAlike (language : Text) (value : Json) : Prop :=
  ∀ path value', Alike .comments language value value' →
    ReadAlike TypeNode.uncommented (readType path value) (readType path value')

theorem readTypes_alike (path : Text) {items items' : List Json}
    (hread : ∀ item ∈ items, ReadsAlike language item)
    (hitems : AlikeItems .comments language items items') :
    ReadAlike TypeNode.uncommentedTypes (readTypes path items) (readTypes path items') := by
  induction items generalizing items' with
  | nil =>
      cases hitems
      exact .ok rfl
  | cons item rest ih =>
      obtain ⟨hfirst, hothers⟩ := List.forall_mem_cons.mp hread
      cases hitems with
      | cons hitem hrest =>
          rw [readTypes, readTypes]
          apply Likewise.bind (hfirst path _ hitem)
          intro first first' hfirst
          apply Likewise.bind (ih hothers hrest)
          intro others others' hothers
          refine .ok ?_
          rw [TypeNode.uncommentedTypes, TypeNode.uncommentedTypes, hfirst, hothers]
      | excluded hleeway => cases hleeway

theorem readTypesAt_alike {entries entries' : List (Text × Json)} (key path : Text)
    (hkey : isCommentKey key = false)
    (hread : ∀ inner, Json.Below inner (.obj entries) → ReadsAlike language inner)
    (hentries : AlikeEntries .comments language entries entries') :
    ReadAlike TypeNode.uncommentedTypes (readTypesAt key path entries)
      (readTypesAt key path entries') := by
  have hfound := hentries.find? key fun _ => hkey
  have hbelow : ∀ items, Text.find? key entries = some (.arr items) →
      ∀ item ∈ items, Json.Below item (.obj entries) := fun items hitems item hitem =>
    (Relation.TransGen.single (.item hitem)).tail (.value (Json.mem_of_find? hitems))
  rw [readTypesAt_eq, readTypesAt_eq]
  generalize Text.find? key entries = found at hfound hbelow ⊢
  generalize Text.find? key entries' = found' at hfound ⊢
  cases hfound with
  | none => exact .ok rfl
  | some hvalue =>
      cases hvalue with
      | null => exact .ok rfl
      | arr hitems =>
          exact readTypes_alike path (fun item hitem => hread item (hbelow _ rfl item hitem)) hitems
      | _ => exact .error (sameSource_atPath path rfl)

theorem readTypeAt_alike {entries entries' : List (Text × Json)} (key path : Text)
    (hkey : isCommentKey key = false)
    (hread : ∀ inner, Json.Below inner (.obj entries) → ReadsAlike language inner)
    (hentries : AlikeEntries .comments language entries entries') :
    ReadAlike (Option.map TypeNode.uncommented) (readTypeAt key path entries)
      (readTypeAt key path entries') := by
  have hfound := hentries.find? key fun _ => hkey
  have hbelow : ∀ value, Text.find? key entries = some value →
      Json.Below value (.obj entries) := fun value hvalue =>
    .single (.value (Json.mem_of_find? hvalue))
  rw [readTypeAt_eq, readTypeAt_eq]
  generalize Text.find? key entries = found at hfound hbelow ⊢
  generalize Text.find? key entries' = found' at hfound ⊢
  cases hfound with
  | none => exact .ok rfl
  | some hvalue =>
      have htype : ∀ {type type' : TypeNode}, type.uncommented = type'.uncommented →
          Option.map TypeNode.uncommented (some type) =
            Option.map TypeNode.uncommented (some type') :=
        fun hsame => congrArg some hsame
      have hrun := hread _ (hbelow _ rfl) path _ hvalue
      cases hvalue with
      | null => exact .ok rfl
      | _ => exact Likewise.bind hrun fun _ _ hsame => .ok (htype hsame)

theorem isTruthy_alike {value value' : Json} (hvalue : Alike .comments language value value') :
    value.isTruthy = value'.isTruthy := by
  cases hvalue with
  | arr hitems => cases hitems <;> rfl
  | obj hentries => cases hentries <;> rfl
  | _ => rfl

theorem required_alike {entries entries' : List (Text × Json)} (default : Bool)
    (hentries : AlikeEntries .comments language entries entries') :
    ((Text.find? "required" entries).map Json.isTruthy).getD default =
      ((Text.find? "required" entries').map Json.isTruthy).getD default := by
  have hfound := hentries.find? "required" fun _ => rfl
  generalize Text.find? "required" entries = found at hfound ⊢
  generalize Text.find? "required" entries' = found' at hfound ⊢
  cases hfound with
  | none => rfl
  | some hvalue => exact isTruthy_alike hvalue

/-! ## Slots -/

theorem readSlot_alike (role : SlotRole) (path : Text) {value value' : Json}
    (hread : ∀ inner, Json.Below inner value → ReadsAlike language inner)
    (hvalue : Alike .comments language value value') :
    ReadAlike Slot.uncommented (readSlot role path value) (readSlot role path value') := by
  have hnamed := named_alike false path hvalue
  cases hvalue with
  | obj hentries =>
      rw [readSlot, readSlot]
      apply Likewise.bind hnamed
      rintro ⟨_, name⟩ ⟨_, _⟩ ⟨-, rfl⟩
      apply Likewise.bind (readTypeAt_alike "type" (path ++ "." ++ name) rfl hread hentries)
      intro type type' htype
      cases type with
      | none =>
          cases type' with
          | none => exact .error (sameSource_atPath _ rfl)
          | some type' => simp at htype
      | some type =>
          cases type' with
          | none => simp at htype
          | some type' =>
              have hrequired := required_alike false hentries
              have htype : type.uncommented = type'.uncommented := Option.some.inj htype
              refine .ok ?_
              simp only [Slot.uncommented, htype, hrequired]
  | _ => exact .error (sameSource_atPath path rfl)

theorem readSlots_alike (role : SlotRole) (path : Text) {items items' : List Json}
    (hread : ∀ item ∈ items, ∀ inner, Json.Below inner item → ReadsAlike language inner)
    (hitems : AlikeItems .comments language items items') :
    ReadAlike (List.map Slot.uncommented) (readSlots role path items)
      (readSlots role path items') := by
  induction items generalizing items' with
  | nil =>
      cases hitems
      exact .ok rfl
  | cons item rest ih =>
      obtain ⟨hfirst, hothers⟩ := List.forall_mem_cons.mp hread
      cases hitems with
      | cons hitem hrest =>
          rw [readSlots, readSlots]
          apply Likewise.bind (readSlot_alike role path hfirst hitem)
          intro first first' hfirst
          apply Likewise.bind (ih hothers hrest)
          intro others others' hothers
          refine .ok ?_
          rw [List.map_cons, List.map_cons, hfirst, hothers]
      | excluded hleeway => cases hleeway

theorem readSlotsAt_alike {entries entries' : List (Text × Json)} (key path : Text)
    (hkey : isCommentKey key = false)
    (hread : ∀ inner, Json.Below inner (.obj entries) → ReadsAlike language inner)
    (hentries : AlikeEntries .comments language entries entries') :
    ReadAlike (List.map Slot.uncommented) (readSlotsAt key path entries)
      (readSlotsAt key path entries') := by
  have hfound := hentries.find? key fun _ => hkey
  have hbelow : ∀ items, Text.find? key entries = some (.arr items) → ∀ item ∈ items,
      ∀ inner, Json.Below inner item → Json.Below inner (.obj entries) :=
    fun items hitems item hitem inner hinner =>
      (hinner.tail (.item hitem)).tail (.value (Json.mem_of_find? hitems))
  rw [readSlotsAt_eq, readSlotsAt_eq]
  generalize Text.find? key entries = found at hfound hbelow ⊢
  generalize Text.find? key entries' = found' at hfound ⊢
  cases hfound with
  | none => exact .ok rfl
  | some hvalue =>
      cases hvalue with
      | null => exact .ok rfl
      | arr hitems =>
          exact readSlots_alike .property path (fun item hitem inner hinner =>
            hread inner (hbelow _ rfl item hitem inner hinner)) hitems
      | _ => exact .error (sameSource_atPath path rfl)

theorem isSome_find?_alike {entries entries' : List (Text × Json)} (key : Text)
    (hkey : isCommentKey key = false)
    (hentries : AlikeEntries .comments language entries entries') :
    (Text.find? key entries).isSome = (Text.find? key entries').isSome := by
  have hfound := hentries.find? key fun _ => hkey
  generalize Text.find? key entries = found at hfound ⊢
  generalize Text.find? key entries' = found' at hfound ⊢
  cases hfound <;> rfl

/-- Types read alike, by induction on how deep the value is: the types that are
read on the way stand inside it. -/
theorem readType_alike (value : Json) : ReadsAlike language value := by
  induction value using Json.wellFounded_below.induction with
  | _ value ih =>
  intro path value' hvalue
  have hnamed := named_alike true path hvalue
  cases hvalue with
  | @obj entries entries' hentries =>
      have htypes := fun key hkey => readTypesAt_alike key path hkey ih hentries
      have htype := readTypeAt_alike "returnType" path rfl ih hentries
      rw [readType, readType]
      apply Likewise.bind hnamed
      rintro ⟨_, name⟩ ⟨_, _⟩ ⟨-, rfl⟩
      dsimp only
      rw [isSome_find?_alike "union" rfl hentries, isSome_find?_alike "args" rfl hentries]
      split
      next =>
        apply Likewise.bind (htypes "union" rfl)
        intro members members' hmembers
        refine .ok ?_
        rw [TypeNode.uncommented, TypeNode.uncommented, hmembers]
      next =>
        split
        next =>
          split
          next =>
            apply Likewise.bind (htypes "args" rfl)
            intro args args' hargs
            apply Likewise.bind htype
            intro result result' hresult
            refine .ok ?_
            cases result <;> cases result' <;> simp_all [TypeNode.uncommented]
          next =>
            apply Likewise.bind htype
            intro result result' hresult
            refine .ok ?_
            cases result <;> cases result' <;> simp_all [TypeNode.uncommented]
        next =>
          apply Likewise.bind (htypes "templates" rfl)
          intro templates templates' htemplates
          have hempty : templates.isEmpty = templates'.isEmpty := by
            have hlength := uncommentedTypes_length htemplates
            cases templates <;> cases templates' <;> simp_all
          rw [hempty]
          split
          next => exact templatedType_alike name path htemplates
          next =>
            split
            next =>
              apply Likewise.bind (readSlotsAt_alike "properties" path rfl ih hentries)
              intro slots slots' hslots
              refine .ok ?_
              rw [TypeNode.uncommented, TypeNode.uncommented, TypeNode.uncommentedSlots_eq,
                TypeNode.uncommentedSlots_eq, hslots]
            next =>
              split
              next => exact .error (sameSource_atPath path rfl)
              next => exact .ok rfl
  | _ => exact .error (sameSource_atPath path rfl)

/-! ## Members and interfaces -/

theorem isEmptyOptions_uncommented (param : Slot TypeNode) :
    isEmptyOptions param.uncommented = isEmptyOptions param := by
  obtain ⟨name, path, type, required, comment⟩ := param
  unfold isEmptyOptions Slot.uncommented
  cases type with
  | record path properties => cases properties <;> rfl
  | bareFunction path result => cases result <;> rfl
  | function path args result => cases result <;> rfl
  | _ => rfl

theorem readParams_alike (path : Text) {entries entries' : List (Text × Json)}
    (hentries : AlikeEntries .comments language entries entries') :
    ReadAlike (List.map Slot.uncommented) (readParams path (Text.find? "args" entries))
      (readParams path (Text.find? "args" entries')) := by
  have hfound := hentries.find? "args" fun _ => rfl
  generalize Text.find? "args" entries = found at hfound ⊢
  generalize Text.find? "args" entries' = found' at hfound ⊢
  cases hfound with
  | none => exact .ok rfl
  | some hvalue =>
      cases hvalue with
      | null => exact .ok rfl
      | arr hitems =>
          apply Likewise.bind (readSlots_alike .parameter path
            (fun _ _ inner _ => readType_alike inner) hitems)
          intro params params' hparams
          have hkept : ∀ params : List (Slot TypeNode),
              (params.filter fun param => !isEmptyOptions param).map Slot.uncommented =
                (params.map Slot.uncommented).filter fun param => !isEmptyOptions param := by
            intro params
            rw [List.filter_map]
            congr 1
            exact List.filter_congr fun param _ => by
              rw [Function.comp_apply, isEmptyOptions_uncommented]
          refine .ok ?_
          rw [hkept, hkept, hparams]
      | _ => exact .error (sameSource_atPath path rfl)

theorem kind_alike {entries entries' : List (Text × Json)}
    (hentries : AlikeEntries .comments language entries entries') :
    MemberKind.ofJson? ((Text.find? "kind" entries).getD .null) =
      MemberKind.ofJson? ((Text.find? "kind" entries').getD .null) := by
  have hfound := hentries.find? "kind" fun _ => rfl
  generalize Text.find? "kind" entries = found at hfound ⊢
  generalize Text.find? "kind" entries' = found' at hfound ⊢
  cases hfound with
  | none => rfl
  | some hvalue => cases hvalue <;> rfl

theorem readMember_alike (interfacePath : Text) {value value' : Json}
    (hvalue : Alike .comments language value value') :
    ReadAlike Member.uncommented (readMember interfacePath value)
      (readMember interfacePath value') := by
  unfold readMember
  apply Likewise.bind (named_alike false interfacePath hvalue)
  rintro ⟨entries, name⟩ ⟨entries', name'⟩ ⟨hentries, hname⟩
  obtain rfl : name = name' := hname
  replace hentries : AlikeEntries .comments language entries entries' := hentries
  have hkind := kind_alike hentries
  have hread := fun inner (_ : Json.Below inner (.obj entries)) =>
    (readType_alike inner : ReadsAlike language inner)
  dsimp only
  generalize MemberKind.ofJson? ((Text.find? "kind" entries).getD .null) = kind at hkind ⊢
  generalize MemberKind.ofJson? ((Text.find? "kind" entries').getD .null) = kind' at hkind ⊢
  subst hkind
  cases kind with
  | none => exact .error (sameSource_atPath _ rfl)
  | some kind =>
      apply Likewise.bind (readTypeAt_alike "type" _ rfl hread hentries)
      intro type type' htype
      apply Likewise.bind (readParams_alike _ hentries)
      intro params params' hparams
      have hrequired := required_alike true hentries
      refine .ok ?_
      simp only [Member.uncommented, htype, hparams, hrequired]

theorem readMembers_alike (interfacePath : Text) {items items' : List Json}
    (hitems : AlikeItems .comments language items items') :
    ReadAlike (List.map Member.uncommented) (readMembers interfacePath items)
      (readMembers interfacePath items') := by
  induction items generalizing items' with
  | nil =>
      cases hitems
      exact .ok rfl
  | cons item rest ih =>
      cases hitems with
      | cons hitem hrest =>
          rw [readMembers, readMembers]
          apply Likewise.bind (readMember_alike interfacePath hitem)
          intro first first' hfirst
          apply Likewise.bind (ih hrest)
          intro others others' hothers
          refine .ok ?_
          rw [List.map_cons, List.map_cons, hfirst, hothers]
      | excluded hleeway => cases hleeway

theorem keys_alike {entries entries' : List (Text × Json)}
    (hentries : AlikeEntries .comments language entries entries') :
    entries.map Prod.fst = entries'.map Prod.fst := by
  induction entries generalizing entries' with
  | nil =>
      cases hentries
      rfl
  | cons entry rest ih =>
      cases hentries with
      | cons _ _ hrest => rw [List.map_cons, List.map_cons, ih hrest]
      | comment _ _ hrest => rw [List.map_cons, List.map_cons, ih hrest]

theorem memberValues_alike {value value' : Json} (hvalue : Alike .comments language value value') :
    Likewise Failure.SameSource (AlikeItems .comments language) (memberValues value)
      (memberValues value') := by
  cases hvalue with
  | arr hitems => exact .ok hitems
  | str text => exact .ok (.refl _)
  | @obj entries entries' hentries =>
      have hkeys : (entries.map Prod.fst).map Json.str = (entries'.map Prod.fst).map Json.str := by
        rw [keys_alike hentries]
      rw [List.map_map, List.map_map] at hkeys
      have hsame : memberValues (.obj entries) = memberValues (.obj entries') :=
        congrArg Except.ok hkeys
      rw [hsame]
      exact .refl .refl .refl _
  | _ => exact .error (.refl _)

theorem readInterface_alike {value value' : Json} (hvalue : Alike .comments language value value') :
    ReadAlike Interface.uncommented (readInterface value) (readInterface value') := by
  unfold readInterface
  apply Likewise.bind (named_alike false "" hvalue)
  rintro ⟨entries, name⟩ ⟨entries', name'⟩ ⟨hentries, hname⟩
  obtain rfl : name = name' := hname
  replace hentries : AlikeEntries .comments language entries entries' := hentries
  have hmembers : ∀ (supertype comment comment' : Json) (items items' : Except Failure (List Json)),
      Likewise Failure.SameSource (AlikeItems .comments language) items items' →
      ReadAlike Interface.uncommented
        (do return ⟨name, name, supertype, comment, ← readMembers name (← items)⟩)
        (do return ⟨name, name, supertype, comment', ← readMembers name (← items')⟩) := by
    intro supertype comment comment' items items' hitems
    apply Likewise.bind hitems
    intro items items' hitems
    apply Likewise.bind (readMembers_alike name hitems)
    intro members members' hmembers
    refine .ok ?_
    simp only [Interface.uncommented, hmembers]
  have hfound := hentries.find? "members" fun _ => rfl
  dsimp only
  rw [hentries.find?_naming "extends" rfl]
  generalize Text.find? "members" entries = found at hfound ⊢
  generalize Text.find? "members" entries' = found' at hfound ⊢
  cases hfound with
  | none => exact hmembers _ _ _ (.ok []) (.ok []) (.ok .nil)
  | some hvalue => exact hmembers _ _ _ _ _ (memberValues_alike hvalue)

theorem readInterfaces_alike {items items' : List Json}
    (hitems : AlikeItems .comments language items items') :
    ReadAlike (List.map Interface.uncommented) (readInterfaces items) (readInterfaces items') := by
  induction items generalizing items' with
  | nil =>
      cases hitems
      exact .ok rfl
  | cons item rest ih =>
      cases hitems with
      | cons hitem hrest =>
          rw [readInterfaces, readInterfaces]
          apply Likewise.bind (readInterface_alike hitem)
          intro first first' hfirst
          apply Likewise.bind (ih hrest)
          intro others others' hothers
          refine .ok ?_
          rw [List.map_cons, List.map_cons, hfirst, hothers]
      | excluded hleeway => cases hleeway

theorem read_alike {value value' : Json} (hvalue : Alike .comments language value value') :
    ReadAlike (List.map Interface.uncommented) (read value) (read value') := by
  cases hvalue with
  | arr hitems => exact readInterfaces_alike hitems
  | _ => exact .error (sameSource_atPath _ rfl)

end Schema
end ApiBindings
