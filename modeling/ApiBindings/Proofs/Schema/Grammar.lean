import ApiBindings.Proofs.Schema.Location
/-!
# The grammar of types

A type is told by the keys that its object has, by its name and by the number of
its template arguments.  `WellFormed` is that grammar, one clause for each shape
that an object can have, and `Denotes` says which node a shape stands for, with
the children in the order of the description.  Neither mentions the reader, and
neither says anything about paths, which `TypeNode.LocatedAt` does.
-/

namespace ApiBindings
namespace Schema

/-- The items of the list under a key, unless something else than a list stands
there.  A missing or null list has no items. -/
def items? (key : Text) (entries : List (Text × Json)) : Option (List Json) :=
  match Text.find? key entries with
  | none | some .null => some []
  | some (.arr items) => some items
  | some _ => none

/-- The value under a key; a null one counts as missing. -/
def value? (key : Text) (entries : List (Text × Json)) : Option Json :=
  match Text.find? key entries with
  | none | some .null => none
  | some value => some value

theorem below_of_mem_items? {key : Text} {entries : List (Text × Json)} {items : List Json}
    {item : Json} (hlist : items ∈ items? key entries) (hitem : item ∈ items) :
    Json.Below item (.obj entries) := by
  unfold items? at hlist
  split at hlist
  next => simp_all
  next => simp_all
  next found hfound =>
    obtain rfl := Option.some.inj hlist
    exact (Relation.TransGen.single (.item hitem)).tail (.value (Json.mem_of_find? hfound))
  next => simp at hlist

theorem below_of_mem_value? {key : Text} {entries : List (Text × Json)} {value : Json}
    (hvalue : value ∈ value? key entries) : Json.Below value (.obj entries) := by
  unfold value? at hvalue
  split at hvalue
  next => simp at hvalue
  next => simp at hvalue
  next found _ hfound =>
    obtain rfl := Option.some.inj hvalue
    exact .single (.value (Json.mem_of_find? hfound))

/-- A type of this name can have this number of template arguments. -/
def TakesArguments (name : Text) (count : Nat) : Prop :=
  (name = "Array" → count ≤ 1) ∧ (name = "Map" ∨ name = "Object" → count = 0 ∨ count = 2)

mutual

/-- The values that are types.  A union key decides first, then the name
`function`, then whether there are template arguments, and last the name `Object`. -/
inductive WellFormed : Json → Prop
  | union {entries : List (Text × Json)} {name : Text} {members : List Json}
      (hname : Text.find? "name" entries = some (.str name))
      (hunion : Text.find? "union" entries ≠ none) (hlist : members ∈ items? "union" entries)
      (hmembers : ∀ member ∈ members, WellFormed member) : WellFormed (.obj entries)
  | function {entries : List (Text × Json)} {args : List Json}
      (hname : Text.find? "name" entries = some (.str "function"))
      (hunion : Text.find? "union" entries = none) (hlist : args ∈ items? "args" entries)
      (hargs : ∀ arg ∈ args, WellFormed arg)
      (hresult : ∀ result ∈ value? "returnType" entries, WellFormed result) :
    WellFormed (.obj entries)
  | templated {entries : List (Text × Json)} {name : Text} {args : List Json}
      (hname : Text.find? "name" entries = some (.str name))
      (hunion : Text.find? "union" entries = none) (hfunction : name ≠ "function")
      (hlist : args ∈ items? "templates" entries) (hnonempty : args ≠ [])
      (hargs : ∀ arg ∈ args, WellFormed arg) (hcount : TakesArguments name args.length) :
    WellFormed (.obj entries)
  | record {entries : List (Text × Json)} {properties : List Json}
      (hname : Text.find? "name" entries = some (.str "Object"))
      (hunion : Text.find? "union" entries = none) (hplain : [] ∈ items? "templates" entries)
      (hlist : properties ∈ items? "properties" entries)
      (hproperties : ∀ property ∈ properties, WellFormedProperty property) :
    WellFormed (.obj entries)
  | primitive {entries : List (Text × Json)} {name : Text}
      (hname : Text.find? "name" entries = some (.str name))
      (hunion : Text.find? "union" entries = none) (hfunction : name ≠ "function")
      (hplain : [] ∈ items? "templates" entries) (hobject : name ≠ "Object")
      (hnonempty : name ≠ "") : WellFormed (.obj entries)

/-- The values that are properties of a record. -/
inductive WellFormedProperty : Json → Prop
  | property {entries : List (Text × Json)} {name : Text} {type : Json}
      (hname : Text.find? "name" entries = some (.str name)) (hnonempty : name ≠ "")
      (htype : type ∈ value? "type" entries) (hwell : WellFormed type) :
    WellFormedProperty (.obj entries)

end

mutual

/-- The node that a type stands for, wherever it is located. -/
inductive Denotes : Json → TypeNode → Prop
  | union {entries : List (Text × Json)} {name path : Text} {items : List Json}
      {members : List TypeNode} (hname : Text.find? "name" entries = some (.str name))
      (hunion : Text.find? "union" entries ≠ none) (hlist : items ∈ items? "union" entries)
      (hmembers : List.Forall₂ Denotes items members) :
    Denotes (.obj entries) (.union name path members)
  | bareFunction {entries : List (Text × Json)} {path : Text} {result : Option TypeNode}
      (hname : Text.find? "name" entries = some (.str "function"))
      (hunion : Text.find? "union" entries = none) (hargs : Text.find? "args" entries = none)
      (hresult : Option.Rel Denotes (value? "returnType" entries) result) :
    Denotes (.obj entries) (.bareFunction path result)
  | function {entries : List (Text × Json)} {path : Text} {items : List Json}
      {args : List TypeNode} {result : Option TypeNode}
      (hname : Text.find? "name" entries = some (.str "function"))
      (hunion : Text.find? "union" entries = none) (hkey : Text.find? "args" entries ≠ none)
      (hlist : items ∈ items? "args" entries) (hargs : List.Forall₂ Denotes items args)
      (hresult : Option.Rel Denotes (value? "returnType" entries) result) :
    Denotes (.obj entries) (.function path args result)
  | array {entries : List (Text × Json)} {path : Text} {item : Json} {element : TypeNode}
      (hname : Text.find? "name" entries = some (.str "Array"))
      (hunion : Text.find? "union" entries = none) (hlist : [item] ∈ items? "templates" entries)
      (helement : Denotes item element) : Denotes (.obj entries) (.array path element)
  | map {entries : List (Text × Json)} {name path : Text} {first second : Json}
      {key value : TypeNode} (hname : Text.find? "name" entries = some (.str name))
      (hunion : Text.find? "union" entries = none) (hmap : name = "Map" ∨ name = "Object")
      (hlist : [first, second] ∈ items? "templates" entries) (hkey : Denotes first key)
      (hvalue : Denotes second value) : Denotes (.obj entries) (.map name path key value)
  | generic {entries : List (Text × Json)} {name path : Text} {items : List Json}
      {args : List TypeNode} (hname : Text.find? "name" entries = some (.str name))
      (hunion : Text.find? "union" entries = none)
      (hother : name ∉ (["function", "Array", "Map", "Object"] : List Text))
      (hlist : items ∈ items? "templates" entries) (hnonempty : items ≠ [])
      (hargs : List.Forall₂ Denotes items args) : Denotes (.obj entries) (.generic name path args)
  | record {entries : List (Text × Json)} {path : Text} {items : List Json}
      {properties : List (Slot TypeNode)}
      (hname : Text.find? "name" entries = some (.str "Object"))
      (hunion : Text.find? "union" entries = none) (hplain : [] ∈ items? "templates" entries)
      (hlist : items ∈ items? "properties" entries)
      (hproperties : List.Forall₂ DenotesProperty items properties) :
    Denotes (.obj entries) (.record path properties)
  | primitive {entries : List (Text × Json)} {name path : Text}
      (hname : Text.find? "name" entries = some (.str name))
      (hunion : Text.find? "union" entries = none)
      (hother : name ∉ (["function", "Object", ""] : List Text))
      (hplain : [] ∈ items? "templates" entries) : Denotes (.obj entries) (.primitive name path)

/-- The property that an object stands for.  Only a truthy mark makes it
required, and a missing comment is empty. -/
inductive DenotesProperty : Json → Slot TypeNode → Prop
  | property {entries : List (Text × Json)} {name path : Text} {type : Json} {node : TypeNode}
      (hname : Text.find? "name" entries = some (.str name)) (hnonempty : name ≠ "")
      (htype : type ∈ value? "type" entries) (hnode : Denotes type node) :
    DenotesProperty (.obj entries) {
      name, path
      type := node
      required := ((Text.find? "required" entries).map Json.isTruthy).getD false
      comment := (Text.find? "comment" entries).getD (.str "") }

end

/-- A type stands for this node at the place of this path. -/
@[mk_iff]
structure DenotesAt (path : Text) (data : Json) (node : TypeNode) : Prop where
  denotes : Denotes data node
  located : node.LocatedAt path

/-- A property stands for this slot in the record of this path. -/
@[mk_iff]
structure DenotesPropertyIn (ownerPath : Text) (data : Json) (slot : Slot TypeNode) : Prop where
  denotes : DenotesProperty data slot
  located : slot.LocatedIn ownerPath

/-! ## The grammar, clause by clause -/

theorem forall₂_and_right {α β : Type} {rel : α → β → Prop} {good : β → Prop} {as : List α}
    {bs : List β} : List.Forall₂ (fun a b => rel a b ∧ good b) as bs ↔
      List.Forall₂ rel as bs ∧ ∀ b ∈ bs, good b := by
  induction as generalizing bs with
  | nil => cases bs <;> simp
  | cons a as ih =>
      cases bs with
      | nil => simp
      | cons b bs =>
          simp only [List.forall₂_cons, ih, List.forall_mem_cons]
          tauto

section

variable {path name : Text} {entries : List (Text × Json)}

theorem denotesAt_each_iff {items : List Json} {nodes : List TypeNode} :
    List.Forall₂ (DenotesAt path) items nodes ↔
      List.Forall₂ Denotes items nodes ∧ ∀ node ∈ nodes, node.LocatedAt path := by
  simp only [← forall₂_and_right, ← denotesAt_iff]

theorem denotesPropertyIn_each_iff {items : List Json} {slots : List (Slot TypeNode)} :
    List.Forall₂ (DenotesPropertyIn path) items slots ↔
      List.Forall₂ DenotesProperty items slots ∧ ∀ slot ∈ slots, slot.LocatedIn path := by
  simp only [← forall₂_and_right, ← denotesPropertyIn_iff]

theorem denotesAt_optional_iff {value : Option Json} {node : Option TypeNode} :
    Option.Rel (DenotesAt path) value node ↔
      Option.Rel Denotes value node ∧ ∀ result ∈ node, result.LocatedAt path := by
  cases value <;> cases node <;> simp [denotesAt_iff]

theorem WellFormed.hasName (hwell : WellFormed (.obj entries)) :
    ∃ name, Text.find? "name" entries = some (.str name) := by
  cases hwell <;> exact ⟨_, ‹_›⟩

theorem Denotes.hasName {node : TypeNode} (hdenotes : Denotes (.obj entries) node) :
    Text.find? "name" entries = some (.str node.name) := by
  cases hdenotes <;> assumption

theorem Denotes.name_eq {node : TypeNode} (hdenotes : Denotes (.obj entries) node)
    (hname : Text.find? "name" entries = some (.str name)) : node.name = name := by
  simpa [hname] using hdenotes.hasName.symm

/-! ### Unions -/

section

variable (hname : Text.find? "name" entries = some (.str name))
  (hunion : Text.find? "union" entries ≠ none)

include hname hunion

theorem wellFormed_union_iff :
    WellFormed (.obj entries) ↔
      ∃ items ∈ items? "union" entries, ∀ item ∈ items, WellFormed item := by
  constructor
  · intro hwell
    cases hwell with
    | union _ _ hlist hmembers => exact ⟨_, hlist, hmembers⟩
    | _ => contradiction
  · rintro ⟨items, hlist, hmembers⟩
    exact .union hname hunion hlist hmembers

theorem denotesAt_union_iff (node : TypeNode) :
    DenotesAt path (.obj entries) node ↔
      ∃ members, (∃ items ∈ items? "union" entries, List.Forall₂ (DenotesAt path) items members) ∧
        node = .union name path members := by
  constructor
  · rintro ⟨hdenotes, hlocated⟩
    obtain rfl := hdenotes.name_eq hname
    cases hdenotes with
    | union _ _ hlist hmembers =>
        cases hlocated with
        | union hlocated => exact ⟨_, ⟨_, hlist, denotesAt_each_iff.mpr ⟨hmembers, hlocated⟩⟩, rfl⟩
    | _ => contradiction
  · rintro ⟨members, ⟨items, hlist, hmembers⟩, rfl⟩
    obtain ⟨hmembers, hlocated⟩ := denotesAt_each_iff.mp hmembers
    exact ⟨.union hname hunion hlist hmembers, .union hlocated⟩

end

/-! ### Functions -/

section

variable (hname : Text.find? "name" entries = some (.str "function"))
  (hunion : Text.find? "union" entries = none)

include hname hunion

theorem wellFormed_function_iff :
    WellFormed (.obj entries) ↔
      (∃ items ∈ items? "args" entries, ∀ item ∈ items, WellFormed item) ∧
        ∀ result ∈ value? "returnType" entries, WellFormed result := by
  constructor
  · intro hwell
    cases hwell with
    | function _ _ hlist hargs hresult => exact ⟨⟨_, hlist, hargs⟩, hresult⟩
    | _ => simp_all +decide
  · rintro ⟨⟨items, hlist, hargs⟩, hresult⟩
    exact .function hname hunion hlist hargs hresult

theorem denotesAt_bareFunction_iff (hargs : Text.find? "args" entries = none)
    (node : TypeNode) :
    DenotesAt path (.obj entries) node ↔
      ∃ result, Option.Rel (DenotesAt path) (value? "returnType" entries) result ∧
        node = .bareFunction path result := by
  constructor
  · rintro ⟨hdenotes, hlocated⟩
    cases hdenotes with
    | bareFunction _ _ _ hresult =>
        cases hlocated with
        | bareFunction hlocated => exact ⟨_, denotesAt_optional_iff.mpr ⟨hresult, hlocated⟩, rfl⟩
    | _ => simp_all +decide
  · rintro ⟨result, hresult, rfl⟩
    obtain ⟨hresult, hlocated⟩ := denotesAt_optional_iff.mp hresult
    exact ⟨.bareFunction hname hunion hargs hresult, .bareFunction hlocated⟩

theorem denotesAt_function_iff (hkey : Text.find? "args" entries ≠ none) (node : TypeNode) :
    DenotesAt path (.obj entries) node ↔
      ∃ args, (∃ items ∈ items? "args" entries, List.Forall₂ (DenotesAt path) items args) ∧
        ∃ result, Option.Rel (DenotesAt path) (value? "returnType" entries) result ∧
          node = .function path args result := by
  constructor
  · rintro ⟨hdenotes, hlocated⟩
    cases hdenotes with
    | function _ _ _ hlist hargs hresult =>
        cases hlocated with
        | function hlocatedArgs hlocated =>
            exact ⟨_, ⟨_, hlist, denotesAt_each_iff.mpr ⟨hargs, hlocatedArgs⟩⟩, _,
              denotesAt_optional_iff.mpr ⟨hresult, hlocated⟩, rfl⟩
    | _ => simp_all +decide
  · rintro ⟨args, ⟨items, hlist, hargs⟩, result, hresult, rfl⟩
    obtain ⟨hargs, hlocatedArgs⟩ := denotesAt_each_iff.mp hargs
    obtain ⟨hresult, hlocated⟩ := denotesAt_optional_iff.mp hresult
    exact ⟨.function hname hunion hkey hlist hargs hresult, .function hlocatedArgs hlocated⟩

end

/-! ### Types with or without template arguments -/

section

variable (hname : Text.find? "name" entries = some (.str name))
  (hunion : Text.find? "union" entries = none) (hfunction : name ≠ "function")

include hname hunion hfunction

theorem WellFormed.templates (hwell : WellFormed (.obj entries)) :
    ∃ items ∈ items? "templates" entries, ∀ item ∈ items, WellFormed item := by
  cases hwell with
  | templated _ _ _ hlist _ hargs => exact ⟨_, hlist, hargs⟩
  | record _ _ hplain => exact ⟨[], hplain, by simp⟩
  | primitive _ _ _ hplain => exact ⟨[], hplain, by simp⟩
  | _ => simp_all

theorem DenotesAt.templates {node : TypeNode} (hnode : DenotesAt path (.obj entries) node) :
    ∃ args, ∃ items ∈ items? "templates" entries, List.Forall₂ (DenotesAt path) items args := by
  obtain ⟨hdenotes, hlocated⟩ := hnode
  cases hdenotes with
  | array _ _ hlist helement =>
      cases hlocated with
      | array hlocated => exact ⟨_, _, hlist, .cons ⟨helement, hlocated⟩ .nil⟩
  | map _ _ _ hlist hkey hvalue =>
      cases hlocated with
      | map hlocatedKey hlocatedValue =>
          exact ⟨_, _, hlist, .cons ⟨hkey, hlocatedKey⟩ (.cons ⟨hvalue, hlocatedValue⟩ .nil)⟩
  | generic _ _ _ hlist _ hargs =>
      cases hlocated with
      | generic hlocated => exact ⟨_, _, hlist, denotesAt_each_iff.mpr ⟨hargs, hlocated⟩⟩
  | record _ _ hplain => exact ⟨[], [], hplain, .nil⟩
  | primitive _ _ _ hplain => exact ⟨[], [], hplain, .nil⟩
  | _ => simp_all

theorem wellFormed_templated_iff {items : List Json}
    (hlist : items ∈ items? "templates" entries) (hnonempty : items ≠ [])
    (hitems : ∀ item ∈ items, WellFormed item) :
    WellFormed (.obj entries) ↔ TakesArguments name items.length := by
  constructor
  · intro hwell
    cases hwell with
    | templated _ _ _ _ _ _ hcount => simp_all
    | _ => simp_all
  · exact .templated hname hunion hfunction hlist hnonempty hitems

theorem wellFormed_primitive_iff (hplain : [] ∈ items? "templates" entries)
    (hobject : name ≠ "Object") :
    WellFormed (.obj entries) ↔ name ≠ "" := by
  constructor
  · intro hwell
    cases hwell <;> simp_all
  · exact .primitive hname hunion hfunction hplain hobject

theorem denotesAt_primitive_iff (hplain : [] ∈ items? "templates" entries)
    (hobject : name ≠ "Object") (node : TypeNode) :
    DenotesAt path (.obj entries) node ↔ name ≠ "" ∧ node = .primitive name path := by
  constructor
  · rintro ⟨hdenotes, hlocated⟩
    obtain rfl := hdenotes.name_eq hname
    cases hdenotes with
    | primitive _ _ hother =>
        cases hlocated
        exact ⟨by simp_all [TypeNode.name], rfl⟩
    | _ => simp_all [TypeNode.name]
  · rintro ⟨hnonempty, rfl⟩
    exact ⟨.primitive hname hunion (by simp [hfunction, hobject, hnonempty]) hplain,
      .primitive name path⟩

end

/-! ### Records -/

section

variable (hname : Text.find? "name" entries = some (.str "Object"))
  (hunion : Text.find? "union" entries = none) (hplain : [] ∈ items? "templates" entries)

include hname hunion hplain

theorem wellFormed_record_iff :
    WellFormed (.obj entries) ↔
      ∃ items ∈ items? "properties" entries, ∀ item ∈ items, WellFormedProperty item := by
  constructor
  · intro hwell
    cases hwell with
    | record _ _ _ hlist hproperties => exact ⟨_, hlist, hproperties⟩
    | _ => simp_all +decide
  · rintro ⟨items, hlist, hproperties⟩
    exact .record hname hunion hplain hlist hproperties

theorem denotesAt_record_iff (node : TypeNode) :
    DenotesAt path (.obj entries) node ↔
      ∃ properties, (∃ items ∈ items? "properties" entries,
        List.Forall₂ (DenotesPropertyIn path) items properties) ∧
        node = .record path properties := by
  constructor
  · rintro ⟨hdenotes, hlocated⟩
    cases hdenotes with
    | record _ _ _ hlist hproperties =>
        cases hlocated with
        | record hpaths htypes =>
            have hlocated : ∀ property ∈ _, Slot.LocatedIn path property :=
              fun property hmem => ⟨hpaths property hmem, htypes property hmem⟩
            exact ⟨_, ⟨_, hlist, denotesPropertyIn_each_iff.mpr ⟨hproperties, hlocated⟩⟩, rfl⟩
    | _ => simp_all +decide
  · rintro ⟨properties, ⟨items, hlist, hproperties⟩, rfl⟩
    obtain ⟨hproperties, hlocated⟩ := denotesPropertyIn_each_iff.mp hproperties
    exact ⟨.record hname hunion hplain hlist hproperties,
      .record (fun property hmem => (hlocated property hmem).path)
        fun property hmem => (hlocated property hmem).type⟩

end

/-! ### Properties -/

section

variable (hname : Text.find? "name" entries = some (.str name)) (hnonempty : name ≠ "")

include hname hnonempty

theorem wellFormedProperty_iff :
    WellFormedProperty (.obj entries) ↔
      value? "type" entries ≠ none ∧ ∀ type ∈ value? "type" entries, WellFormed type := by
  constructor
  · rintro ⟨_, _, htype, hwell⟩
    exact ⟨by simp_all, fun other hother => Option.mem_unique htype hother ▸ hwell⟩
  · rintro ⟨hsome, hwell⟩
    obtain ⟨type, htype⟩ := Option.ne_none_iff_exists'.mp hsome
    exact .property hname hnonempty htype (hwell type htype)

theorem denotesPropertyIn_iff_type (slot : Slot TypeNode) :
    DenotesPropertyIn path (.obj entries) slot ↔
      ∃ type, Option.Rel (DenotesAt (path ++ "." ++ name)) (value? "type" entries) type ∧
        ∃ node ∈ type, slot = {
          name, path := path ++ "." ++ name
          type := node
          required := ((Text.find? "required" entries).map Json.isTruthy).getD false
          comment := (Text.find? "comment" entries).getD (.str "") } := by
  constructor
  · rintro ⟨@⟨_, name', _, type, node, hname', _, htype, hnode⟩, hpath, hlocated⟩
    obtain rfl : name' = name := by simpa [hname'] using hname
    dsimp only at hpath hlocated
    subst hpath
    refine ⟨some node, ?_, node, rfl, rfl⟩
    rw [htype]
    exact .some ⟨hnode, hlocated⟩
  · rintro ⟨type, htype, node, rfl, rfl⟩
    cases hvalue : value? "type" entries with
    | none => simp [hvalue] at htype
    | some value =>
        rw [hvalue] at htype
        cases htype with
        | some hnode =>
            exact ⟨.property hname hnonempty hvalue hnode.denotes, ⟨rfl, hnode.located⟩⟩

end

end

end Schema
end ApiBindings
