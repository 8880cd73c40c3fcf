import ApiBindings.Proofs.Schema.Comments
/-!
# Paths of what is read and of what is not

A path is handed down from an interface to its members, from a member to its
parameters, and through a type to everything in it; only a property of a record
makes it longer on the way.  So whatever is read carries the path of the nearest
named thing around it.

What cannot be read is reported at a path, and that path is judged here by the
description alone.  `Stands` descends from the description to a value and keeps
the names of the objects that it passes; `Faulty` says what is wrong with the
value.  Neither of them mentions the reader.  One pass over the reader then
gives both halves, by a rule for two readings in a row.
-/

namespace ApiBindings

/-- A type and all parts of it belong to the place of this path.  The properties
of a record have places of their own below it. -/
inductive TypeNode.LocatedAt : Text → TypeNode → Prop
  | primitive (name path : Text) : LocatedAt path (.primitive name path)
  | array {path : Text} {element : TypeNode} (helement : LocatedAt path element) :
    LocatedAt path (.array path element)
  | map {name path : Text} {key value : TypeNode} (hkey : LocatedAt path key)
      (hvalue : LocatedAt path value) : LocatedAt path (.map name path key value)
  | union {name path : Text} {members : List TypeNode}
      (hmembers : ∀ member ∈ members, LocatedAt path member) :
    LocatedAt path (.union name path members)
  | generic {name path : Text} {args : List TypeNode}
      (hargs : ∀ arg ∈ args, LocatedAt path arg) : LocatedAt path (.generic name path args)
  | bareFunction {path : Text} {result : Option TypeNode}
      (hresult : ∀ node ∈ result, LocatedAt path node) :
    LocatedAt path (.bareFunction path result)
  | function {path : Text} {args : List TypeNode} {result : Option TypeNode}
      (hargs : ∀ arg ∈ args, LocatedAt path arg)
      (hresult : ∀ node ∈ result, LocatedAt path node) :
    LocatedAt path (.function path args result)
  | record {path : Text} {properties : List (Slot TypeNode)}
      (hpaths : ∀ property ∈ properties, property.path = path ++ "." ++ property.name)
      (htypes : ∀ property ∈ properties, LocatedAt property.path property.type) :
    LocatedAt path (.record path properties)

structure Slot.LocatedIn (ownerPath : Text) (slot : Slot TypeNode) : Prop where
  path : slot.path = ownerPath ++ "." ++ slot.name
  type : slot.type.LocatedAt slot.path

structure Member.LocatedIn (interfacePath : Text) (member : Member) : Prop where
  path : member.path = interfacePath ++ "." ++ member.name
  type : ∀ node ∈ member.type, node.LocatedAt member.path
  params : ∀ param ∈ member.params, param.LocatedIn member.path

/-- An interface and everything in it carries the path of the nearest named
thing around it. -/
structure Interface.Located (interface : Interface) : Prop where
  path : interface.path = interface.name
  members : ∀ member ∈ interface.members, member.LocatedIn interface.path

namespace Schema

/-! ## Places in a description -/

/-- What stands in a place. -/
inductive Role where
  | description
  | interface
  | members
  | member
  | kind
  | slots (role : SlotRole) (key : Text)
  | slot (role : SlotRole)
  | slotType (role : SlotRole)
  | types (key : Text)
  | type

/-- The places of objects that must have a name. -/
def Role.isNode : Role → Bool
  | .interface | .member | .slot _ | .type => true
  | _ => false

/-- The places of objects whose name may be empty. -/
def Role.mayBeNameless : Role → Bool
  | .type => true
  | _ => false

/-- A value stands in a place of a description, inside the interface, member,
parameter and property objects of these names, the outermost one first.  What a
member or a parameter lacks stands there as null. -/
inductive Stands (schema : Json) : Role → List Text → Json → Prop
  | description : Stands schema .description [] schema
  | interface {names : List Text} {items : List Json} {item : Json}
      (hlist : Stands schema .description names (.arr items)) (hitem : item ∈ items) :
    Stands schema .interface names item
  | members {names : List Text} {entries : List (Text × Json)} {name : Text} {value : Json}
      (hinterface : Stands schema .interface names (.obj entries))
      (hname : Text.find? "name" entries = some (.str name))
      (hvalue : Text.find? "members" entries = some value) :
    Stands schema .members (names ++ [name]) value
  | member {names : List Text} {value : Json} {members : List Json} {member : Json}
      (hvalue : Stands schema .members names value) (hmembers : memberValues value = .ok members)
      (hmember : member ∈ members) : Stands schema .member names member
  | kind {names : List Text} {entries : List (Text × Json)} {name : Text}
      (hmember : Stands schema .member names (.obj entries))
      (hname : Text.find? "name" entries = some (.str name)) :
    Stands schema .kind (names ++ [name]) ((Text.find? "kind" entries).getD .null)
  | result {names : List Text} {entries : List (Text × Json)} {name : Text} {value : Json}
      (hmember : Stands schema .member names (.obj entries))
      (hname : Text.find? "name" entries = some (.str name))
      (hvalue : Text.find? "type" entries = some value) :
    Stands schema .type (names ++ [name]) value
  | params {names : List Text} {entries : List (Text × Json)} {name : Text} {value : Json}
      (hmember : Stands schema .member names (.obj entries))
      (hname : Text.find? "name" entries = some (.str name))
      (hvalue : Text.find? "args" entries = some value) :
    Stands schema (.slots .parameter "args") (names ++ [name]) value
  | slot {role : SlotRole} {key : Text} {names : List Text} {items : List Json} {item : Json}
      (hlist : Stands schema (.slots role key) names (.arr items)) (hitem : item ∈ items) :
    Stands schema (.slot role) names item
  | slotType {role : SlotRole} {names : List Text} {entries : List (Text × Json)} {name : Text}
      (hslot : Stands schema (.slot role) names (.obj entries))
      (hname : Text.find? "name" entries = some (.str name)) :
    Stands schema (.slotType role) (names ++ [name]) ((Text.find? "type" entries).getD .null)
  | typed {role : SlotRole} {names : List Text} {value : Json}
      (hvalue : Stands schema (.slotType role) names value) : Stands schema .type names value
  | types {names : List Text} {entries : List (Text × Json)} {key : Text} {value : Json}
      (htype : Stands schema .type names (.obj entries))
      (hkey : key ∈ (["union", "args", "templates"] : List Text))
      (hvalue : Text.find? key entries = some value) : Stands schema (.types key) names value
  | part {key : Text} {names : List Text} {items : List Json} {item : Json}
      (hlist : Stands schema (.types key) names (.arr items)) (hitem : item ∈ items) :
    Stands schema .type names item
  | returned {names : List Text} {entries : List (Text × Json)} {value : Json}
      (htype : Stands schema .type names (.obj entries))
      (hvalue : Text.find? "returnType" entries = some value) : Stands schema .type names value
  | properties {names : List Text} {entries : List (Text × Json)} {value : Json}
      (htype : Stands schema .type names (.obj entries))
      (hvalue : Text.find? "properties" entries = some value) :
    Stands schema (.slots .property "properties") names value

/-- A value is not fit for its place, for the reason that the cause says. -/
inductive Faulty : Role → Json → Cause → Prop
  | notInterfaces {value : Json} (hvalue : ∀ items, value ≠ .arr items) :
    Faulty .description value (.notInterfaces value)
  | notAnObject {role : Role} {value : Json} (hrole : role.isNode = true)
      (hvalue : ∀ entries, value ≠ .obj entries) : Faulty role value (.notAnObject value)
  | noName {role : Role} {entries : List (Text × Json)} (hrole : role.isNode = true)
      (hname : ∀ name, Text.find? "name" entries = some (.str name) →
        name = "" ∧ role.mayBeNameless = false) :
    Faulty role (.obj entries) (.noName (.obj entries))
  | unknownKind {value : Json} (hvalue : MemberKind.ofJson? value = none) :
    Faulty .kind value (.unknownMemberKind value)
  | slotsNotAList (role : SlotRole) (key : Text) {value : Json} (hnull : value ≠ .null)
      (hvalue : ∀ items, value ≠ .arr items) : Faulty (.slots role key) value (.notAList key value)
  | typesNotAList (key : Text) {value : Json} (hnull : value ≠ .null)
      (hvalue : ∀ items, value ≠ .arr items) : Faulty (.types key) value (.notAList key value)
  | withoutType (role : SlotRole) : Faulty (.slotType role) .null role.withoutType
  | arrayArity {entries : List (Text × Json)} {count : Nat}
      (hname : Text.find? "name" entries = some (.str "Array")) (hcount : count ≠ 1) :
    Faulty .type (.obj entries) (.arrayArity count)
  | mapArity {entries : List (Text × Json)} {name : Text} {count : Nat}
      (hname : Text.find? "name" entries = some (.str name)) (hmap : name = "Map" ∨ name = "Object")
      (hcount : count ≠ 2) : Faulty .type (.obj entries) (.mapArity name count)
  | typeWithoutName {entries : List (Text × Json)}
      (hname : Text.find? "name" entries = some (.str "")) :
    Faulty .type (.obj entries) .typeWithoutName

/-- The path of the named objects around a place. -/
def dotted (names : List Text) : Text :=
  Text.join "." names

theorem dotted_singleton (name : Text) : dotted [name] = name := by
  simp [dotted, Text.join, List.intercalate]

theorem dotted_concat {names : List Text} (hnames : names ≠ []) (name : Text) :
    dotted (names ++ [name]) = dotted names ++ "." ++ name := by
  unfold dotted Text.join
  induction names with
  | nil => exact absurd rfl hnames
  | cons first rest ih =>
      cases rest with
      | nil => simp [List.intercalate]
      | cons second others =>
          have hrest := ih (by simp)
          simp only [List.cons_append, List.intercalate, List.intersperse_cons_cons, List.flatten_cons,
            List.append_assoc] at hrest ⊢
          rw [hrest]

/-- Only the description and the interfaces stand inside no named object. -/
theorem Stands.names_eq_nil_iff {schema : Json} {role : Role} {names : List Text} {value : Json}
    (hplace : Stands schema role names value) :
    names = [] ↔ role = .description ∨ role = .interface := by
  induction hplace with
  | description => simp
  | interface _ _ ih => simpa using ih
  | member _ _ _ ih => simpa using ih
  | slot _ _ ih => simpa using ih
  | typed _ ih => simpa using ih
  | types _ _ _ ih => simpa using ih
  | part _ _ ih => simpa using ih
  | returned _ _ ih => simpa using ih
  | properties _ _ ih => simpa using ih
  | _ => simp

/-- A value stands in a place of this path. -/
def Place (schema : Json) (role : Role) (path : Text) (value : Json) : Prop :=
  ∃ names, Stands schema role names value ∧ dotted names = path

/-- A failure tells what is wrong with a value of the description and at which
path it is, except that members may be given as a value without any parts. -/
inductive Reported (schema : Json) : Failure → Prop
  | diagnosed {role : Role} {path : Text} {value : Json} {cause : Cause}
      (hplace : Place schema role path value) (hfault : Faulty role value cause) :
    Reported schema (cause.atPath path)
  | wrongKind {path : Text} {value : Json} (hplace : Place schema .members path value)
      (hvalue : memberValues value = .error .wrongKind) : Reported schema .wrongKind

/-- What is read has a property, or the failure is reported. -/
inductive Reads {α : Type} (schema : Json) (post : α → Prop) : Except Failure α → Prop
  | ok {a : α} (hpost : post a) : Reads schema post (.ok a)
  | error {failure : Failure} (hreported : Reported schema failure) :
    Reads schema post (.error failure)

section

variable {schema : Json}

theorem Reads.bind {α β : Type} {mid : α → Prop} {post : β → Prop} {first : Except Failure α}
    {next : α → Except Failure β} (hfirst : Reads schema mid first)
    (hnext : ∀ a, mid a → Reads schema post (next a)) : Reads schema post (first >>= next) := by
  cases hfirst with
  | error hreported => exact .error hreported
  | ok hmid => exact hnext _ hmid

theorem Reads.map {α β : Type} {mid : α → Prop} {post : β → Prop} {result : Except Failure α}
    {change : α → β} (hresult : Reads schema mid result) (hchange : ∀ a, mid a → post (change a)) :
    Reads schema post (do return change (← result)) :=
  hresult.bind fun a ha => .ok (hchange a ha)

/-- A list is read one by one. -/
theorem Reads.cons {α : Type} {post : α → Prop} {first : Except Failure α}
    {rest : Except Failure (List α)} (hfirst : Reads schema post first)
    (hrest : Reads schema (fun others => ∀ other ∈ others, post other) rest) :
    Reads schema (fun all => ∀ a ∈ all, post a) (do
      let first ← first
      return first :: (← rest)) := by
  apply hfirst.bind
  intro first hfirst
  apply hrest.map
  intro others hothers
  exact List.forall_mem_cons.mpr ⟨hfirst, hothers⟩

theorem Place.fault {α : Type} {post : α → Prop} {role : Role} {path : Text} {value : Json}
    {cause : Cause} (hplace : Place schema role path value) (hfault : Faulty role value cause) :
    Reads schema post (.error (cause.atPath path)) :=
  .error (.diagnosed hplace hfault)

/-! ## From a place to the places in it -/

section

variable {path name : Text} {entries : List (Text × Json)}

theorem Place.step {role inner : Role} {value part : Json}
    (hplace : Place schema role path value)
    (hstep : ∀ names, Stands schema role names value → Stands schema inner names part) :
    Place schema inner path part := by
  rcases hplace with ⟨names, hstands, hpath⟩
  exact ⟨names, hstep names hstands, hpath⟩

/-- Inside a named object the path goes on with the name of the object. -/
theorem Place.enter {role inner : Role} {value part : Json}
    (hplace : Place schema role path value)
    (hnested : ¬(role = .description ∨ role = .interface))
    (hstep : ∀ names, Stands schema role names value → Stands schema inner (names ++ [name]) part) :
    Place schema inner (path ++ "." ++ name) part := by
  rcases hplace with ⟨names, hstands, hpath⟩
  have hnames : names ≠ [] := fun hnil => hnested (hstands.names_eq_nil_iff.mp hnil)
  refine ⟨names ++ [name], hstep names hstands, ?_⟩
  rw [dotted_concat hnames, hpath]

theorem Place.members {value : Json} (hplace : Place schema .interface path (.obj entries))
    (hname : Text.find? "name" entries = some (.str name))
    (hvalue : Text.find? "members" entries = some value) : Place schema .members name value := by
  rcases hplace with ⟨names, hstands, -⟩
  have hnames : names = [] := hstands.names_eq_nil_iff.mpr (.inr rfl)
  subst hnames
  exact ⟨[name], hstands.members hname hvalue, dotted_singleton name⟩

end

/-! ## Names -/

theorem reads_named {role : Role} {path : Text} {data : Json} (hrole : role.isNode = true)
    (hplace : Place schema role path data) :
    Reads schema
      (fun found => data = .obj found.1 ∧ Text.find? "name" found.1 = some (.str found.2))
      (named role.mayBeNameless path data) := by
  unfold named
  split
  next entries =>
    split
    next name hname =>
      split
      next hempty =>
        apply hplace.fault
        apply Faulty.noName hrole
        intro other hother
        have hsame : name = other := by simpa [hname] using hother
        subst hsame
        simpa using hempty
      next => exact .ok ⟨rfl, hname⟩
    next hname =>
      apply hplace.fault
      apply Faulty.noName hrole
      intro name hfound
      exact absurd hfound (hname name)
  next hobj => exact hplace.fault (.notAnObject hrole hobj)

/-! ## Types -/

/-- Wherever it stands in the description, a value is read as a type of that place. -/
def ReadsType (schema data : Json) : Prop :=
  ∀ path, Place schema .type path data →
    Reads schema (TypeNode.LocatedAt path) (readType path data)

theorem reads_readTypes {path : Text} {items : List Json}
    (hread : ∀ item ∈ items, Reads schema (TypeNode.LocatedAt path) (readType path item)) :
    Reads schema (fun nodes => ∀ node ∈ nodes, node.LocatedAt path) (readTypes path items) := by
  induction items with
  | nil => exact .ok (by simp)
  | cons item rest ih =>
      rcases List.forall_mem_cons.mp hread with ⟨hfirst, hothers⟩
      exact hfirst.cons (ih hothers)

theorem reads_readTypesAt {key path : Text} {entries : List (Text × Json)}
    (hkey : key ∈ (["union", "args", "templates"] : List Text))
    (hread : ∀ inner, Json.Below inner (.obj entries) → ReadsType schema inner)
    (hplace : Place schema .type path (.obj entries)) :
    Reads schema (fun nodes => ∀ node ∈ nodes, node.LocatedAt path)
      (readTypesAt key path entries) := by
  rw [readTypesAt_eq]
  have hlist : ∀ value, Text.find? key entries = some value →
      Place schema (.types key) path value :=
    fun value hvalue => hplace.step fun _ htype => htype.types hkey hvalue
  split
  next => exact .ok (by simp)
  next => exact .ok (by simp)
  next items hitems =>
    apply reads_readTypes
    intro item hitem
    have hbelow : Json.Below item (.obj entries) :=
      (Relation.TransGen.single (.item hitem)).tail (.value (Json.mem_of_find? hitems))
    exact hread item hbelow path ((hlist _ hitems).step fun _ hlist => hlist.part hitem)
  next value hnull harr hvalue =>
    have hnotNull : value ≠ .null := fun heq => hnull heq
    exact (hlist value hvalue).fault (.typesNotAList key hnotNull harr)

theorem reads_readTypeAt (key : Text) {path : Text} {entries : List (Text × Json)}
    (hread : ∀ inner, Json.Below inner (.obj entries) → ReadsType schema inner)
    (hplace : ∀ value, Text.find? key entries = some value → Place schema .type path value) :
    Reads schema
      (fun node? => (∀ node ∈ node?, node.LocatedAt path) ∧
        (node? = none → (Text.find? key entries).getD .null = .null))
      (readTypeAt key path entries) := by
  rw [readTypeAt_eq]
  split
  next hmissing => exact .ok ⟨by simp, fun _ => by rw [hmissing]; rfl⟩
  next hnull => exact .ok ⟨by simp, fun _ => by rw [hnull]; rfl⟩
  next value _ hvalue =>
    have hbelow : Json.Below value (.obj entries) :=
      .single (.value (Json.mem_of_find? hvalue))
    apply (hread value hbelow path (hplace value hvalue)).map
    intro node hnode
    simpa using hnode

/-! ## Slots -/

theorem reads_readSlot {role : SlotRole} {ownerPath : Text} {data : Json}
    (hread : ∀ inner, Json.Below inner data → ReadsType schema inner)
    (hplace : Place schema (.slot role) ownerPath data) :
    Reads schema (fun slot => slot.LocatedIn ownerPath) (readSlot role ownerPath data) := by
  unfold readSlot
  split
  next entries =>
    apply (reads_named rfl hplace).bind
    rintro ⟨_, name⟩ ⟨hobj, hname⟩
    have hentries := Json.obj.inj hobj
    subst hentries
    have htype : Place schema (.slotType role) (ownerPath ++ "." ++ name)
        ((Text.find? "type" entries).getD .null) :=
      hplace.enter (by simp) fun _ hslot => hslot.slotType hname
    have htyped : ∀ value, Text.find? "type" entries = some value →
        Place schema .type (ownerPath ++ "." ++ name) value := by
      intro value hvalue
      rw [hvalue] at htype
      exact htype.step fun _ hvalue => hvalue.typed
    apply (reads_readTypeAt "type" hread htyped).bind
    intro type? hfound
    cases type? with
    | none =>
        rw [hfound.2 rfl] at htype
        exact htype.fault (.withoutType role)
    | some type => exact .ok ⟨rfl, hfound.1 type rfl⟩
  next hobj => exact hplace.fault (.notAnObject rfl hobj)

theorem reads_readSlots {role : SlotRole} {ownerPath : Text} {items : List Json}
    (hread : ∀ item ∈ items,
      Reads schema (fun slot => slot.LocatedIn ownerPath) (readSlot role ownerPath item)) :
    Reads schema (fun slots => ∀ slot ∈ slots, slot.LocatedIn ownerPath)
      (readSlots role ownerPath items) := by
  induction items with
  | nil => exact .ok (by simp)
  | cons item rest ih =>
      rcases List.forall_mem_cons.mp hread with ⟨hfirst, hothers⟩
      exact hfirst.cons (ih hothers)

theorem reads_readSlotsAt {path : Text} {entries : List (Text × Json)}
    (hread : ∀ inner, Json.Below inner (.obj entries) → ReadsType schema inner)
    (hplace : Place schema .type path (.obj entries)) :
    Reads schema (fun slots => ∀ slot ∈ slots, slot.LocatedIn path)
      (readSlotsAt "properties" path entries) := by
  rw [readSlotsAt_eq]
  have hlist : ∀ value, Text.find? "properties" entries = some value →
      Place schema (.slots .property "properties") path value :=
    fun value hvalue => hplace.step fun _ htype => htype.properties hvalue
  split
  next => exact .ok (by simp)
  next => exact .ok (by simp)
  next items hitems =>
    apply reads_readSlots
    intro item hitem
    apply reads_readSlot
    · intro inner hinner
      exact hread inner ((hinner.tail (.item hitem)).tail (.value (Json.mem_of_find? hitems)))
    · exact (hlist _ hitems).step fun _ hlist => hlist.slot hitem
  next value hnull harr hvalue =>
    have hnotNull : value ≠ .null := fun heq => hnull heq
    exact (hlist value hvalue).fault (.slotsNotAList .property "properties" hnotNull harr)

theorem reads_templatedType {path name : Text} {entries : List (Text × Json)}
    {templates : List TypeNode} (hplace : Place schema .type path (.obj entries))
    (hname : Text.find? "name" entries = some (.str name))
    (htemplates : ∀ node ∈ templates, node.LocatedAt path) :
    Reads schema (TypeNode.LocatedAt path) (templatedType name path templates) := by
  unfold templatedType
  split
  next harray =>
    subst harray
    split
    next element => exact .ok (.array (htemplates element (by simp)))
    next hcount =>
      apply hplace.fault (.arrayArity hname _)
      intro hone
      rcases List.length_eq_one_iff.mp hone with ⟨element, helement⟩
      exact hcount element helement
  next =>
    split
    next hmap =>
      split
      next key value => exact .ok (.map (htemplates key (by simp)) (htemplates value (by simp)))
      next hcount =>
        apply hplace.fault (.mapArity hname hmap _)
        intro htwo
        rcases List.length_eq_two.mp htwo with ⟨key, value, hpair⟩
        exact hcount key value hpair
    next => exact .ok (.generic htemplates)

/-- The parts of a type are at the path of the type itself.  The induction is on
how deep the value is, since the parts of a type stand inside it. -/
theorem reads_readType (schema data : Json) : ReadsType schema data := by
  induction data using Json.wellFounded_below.induction with
  | _ data ih =>
  intro path hplace
  unfold readType
  split
  next entries =>
    have htypes : ∀ key, key ∈ (["union", "args", "templates"] : List Text) →
        Reads schema (fun nodes => ∀ node ∈ nodes, node.LocatedAt path)
          (readTypesAt key path entries) :=
      fun key hkey => reads_readTypesAt hkey ih hplace
    have hreturned := reads_readTypeAt "returnType" ih fun value hvalue =>
      hplace.step fun _ htype => htype.returned hvalue
    apply (reads_named rfl hplace).bind
    rintro ⟨_, name⟩ ⟨hobj, hname⟩
    have hentries := Json.obj.inj hobj
    subst hentries
    dsimp only
    split
    next => exact (htypes "union" (by simp)).map fun _ hmembers => .union hmembers
    next =>
      split
      next =>
        split
        next =>
          apply (htypes "args" (by simp)).bind
          intro args hargs
          exact hreturned.map fun _ hresult => .function hargs hresult.1
        next => exact hreturned.map fun _ hresult => .bareFunction hresult.1
      next =>
        apply (htypes "templates" (by simp)).bind
        intro templates htemplates
        split
        next => exact reads_templatedType hplace hname htemplates
        next =>
          split
          next =>
            apply (reads_readSlotsAt ih hplace).map
            intro properties hproperties
            exact .record (fun property hmem => (hproperties property hmem).path)
              fun property hmem => (hproperties property hmem).type
          next =>
            split
            next hempty =>
              subst hempty
              exact hplace.fault (.typeWithoutName hname)
            next => exact .ok (.primitive name path)
  next hobj => exact hplace.fault (.notAnObject rfl hobj)

/-! ## Members and interfaces -/

theorem reads_readParams {path : Text} (args? : Option Json)
    (hplace : ∀ value ∈ args?, Place schema (.slots .parameter "args") path value) :
    Reads schema (fun params => ∀ param ∈ params, param.LocatedIn path)
      (readParams path args?) := by
  unfold readParams
  split
  next => exact .ok (by simp)
  next => exact .ok (by simp)
  next items =>
    have hslots : Reads schema (fun params => ∀ param ∈ params, param.LocatedIn path)
        (readSlots .parameter path items) := by
      apply reads_readSlots
      intro item hitem
      apply reads_readSlot fun inner _ => reads_readType schema inner
      exact (hplace _ rfl).step fun _ hlist => hlist.slot hitem
    apply hslots.map
    intro params hparams param hparam
    exact hparams param (List.mem_filter.mp hparam).1
  next value hnull harr =>
    have hnotNull : value ≠ .null := fun heq => hnull (heq ▸ rfl)
    exact (hplace value rfl).fault (.slotsNotAList .parameter "args" hnotNull fun items heq =>
      harr items (heq ▸ rfl))

theorem reads_readMember {interfacePath : Text} {data : Json}
    (hplace : Place schema .member interfacePath data) :
    Reads schema (fun member => member.LocatedIn interfacePath) (readMember interfacePath data) := by
  unfold readMember
  apply (reads_named rfl hplace).bind
  rintro ⟨entries, name⟩ ⟨hobj, hname⟩
  subst hobj
  have hmember : ∀ {role : Role} {value : Json},
      (∀ names, Stands schema .member names (.obj entries) →
        Stands schema role (names ++ [name]) value) →
      Place schema role (interfacePath ++ "." ++ name) value :=
    fun hstep => hplace.enter (by simp) hstep
  dsimp only
  split
  next hkind => exact (hmember fun _ hmember => hmember.kind hname).fault (.unknownKind hkind)
  next kind _ =>
    have htype := reads_readTypeAt "type" (fun inner _ => reads_readType schema inner)
      fun value hvalue => hmember fun _ hmember => hmember.result hname hvalue
    have hparams := reads_readParams (Text.find? "args" entries)
      fun value hvalue => hmember fun _ hmember => hmember.params hname hvalue
    apply htype.bind
    intro type? htype
    apply hparams.map
    intro params hparams
    exact ⟨rfl, htype.1, hparams⟩

theorem reads_readMembers {interfacePath : Text} (items : List Json)
    (hplace : ∀ item ∈ items, Place schema .member interfacePath item) :
    Reads schema (fun members => ∀ member ∈ members, member.LocatedIn interfacePath)
      (readMembers interfacePath items) := by
  induction items with
  | nil => exact .ok (by simp)
  | cons item rest ih =>
      rcases List.forall_mem_cons.mp hplace with ⟨hfirst, hothers⟩
      exact (reads_readMember hfirst).cons (ih hothers)

theorem memberValues_error {value : Json} {failure : Failure}
    (hvalues : memberValues value = .error failure) : failure = .wrongKind := by
  unfold memberValues at hvalues
  split at hvalues <;> simp_all

theorem reads_readInterface {data : Json} (hplace : Place schema .interface "" data) :
    Reads schema Interface.Located (readInterface data) := by
  unfold readInterface
  apply (reads_named rfl hplace).bind
  rintro ⟨entries, name⟩ ⟨hobj, hname⟩
  subst hobj
  dsimp only
  split
  next =>
    exact (reads_readMembers [] (by simp)).map fun _ hmembers => ⟨rfl, hmembers⟩
  next collection hcollection =>
    have hplaced := hplace.members hname hcollection
    cases hvalues : memberValues collection with
    | error failure =>
        have hfailure := memberValues_error hvalues
        subst hfailure
        exact .error (.wrongKind hplaced hvalues)
    | ok items =>
        have hmembers := reads_readMembers items fun item hitem =>
          hplaced.step fun _ hmembers => hmembers.member hvalues hitem
        exact hmembers.map fun _ hmembers => ⟨rfl, hmembers⟩

theorem reads_readInterfaces {items : List Json}
    (hplace : ∀ item ∈ items, Place schema .interface "" item) :
    Reads schema (fun interfaces => ∀ interface ∈ interfaces, interface.Located)
      (readInterfaces items) := by
  induction items with
  | nil => exact .ok (by simp)
  | cons item rest ih =>
      rcases List.forall_mem_cons.mp hplace with ⟨hfirst, hothers⟩
      exact (reads_readInterface hfirst).cons (ih hothers)

theorem reads_read (schema : Json) :
    Reads schema (fun interfaces => ∀ interface ∈ interfaces, interface.Located) (read schema) := by
  have hplace : Place schema .description "" schema := ⟨[], .description, rfl⟩
  unfold read
  split
  next items =>
    apply reads_readInterfaces
    intro item hitem
    exact hplace.step fun _ hlist => hlist.interface hitem
  next harr => exact hplace.fault (.notInterfaces harr)

end

/-- What is read of a description carries the path of the nearest named thing
around it.  A diagnosis is at the path of the named objects around a value of the
description that is as the cause of the diagnosis says. -/
theorem read_paths_exact (schema : Json) :
    (∀ interfaces, read schema = .ok interfaces →
      ∀ interface ∈ interfaces, interface.Located) ∧
    ∀ diagnosis, read schema = .error (.diagnosed diagnosis) →
      ∃ role names value, Stands schema role names value ∧ Faulty role value diagnosis.cause ∧
        diagnosis.path = .str (dotted names) := by
  have hreads := reads_read schema
  constructor
  · intro interfaces hread
    rw [hread] at hreads
    cases hreads with
    | ok hlocated => exact hlocated
  · intro diagnosis hread
    rw [hread] at hreads
    cases hreads with
    | error hreported =>
        cases hreported with
        | diagnosed hplace hfault =>
            rcases hplace with ⟨names, hstands, hpath⟩
            exact ⟨_, names, _, hstands, hfault, congrArg Json.str hpath.symm⟩

/-- A page that is opened with options of which one is given. -/
def optionsPage (option : Json) : Json :=
  .arr [.obj [("name", .str "Page"), ("members", .arr [.obj [
    ("kind", .str "method"), ("name", .str "open"), ("args", .arr [.obj [
      ("name", .str "options"),
      ("type", .obj [("name", .str "Object"), ("properties", .arr [option])])]])]])]]

def untypedSize : Json :=
  .obj [("name", .str "size")]

def sizeOrSizes : Json :=
  .obj [("name", .str "size"), ("type", .obj [("name", .str ""), ("union", .arr [
    .obj [("name", .str "int")],
    .obj [("name", .str "Array"), ("templates", .arr [.obj [("name", .str "int")]])]])])]

theorem read_paths_exact_sizes :
    (∃ interfaces, read (optionsPage sizeOrSizes) = .ok interfaces ∧
      ∀ interface ∈ interfaces, interface.Located) ∧
    read (optionsPage untypedSize) =
      .error (.diagnosed ⟨.propertyWithoutType, .str "Page.open.options.size"⟩) ∧
    ∃ role names value, Stands (optionsPage untypedSize) role names value ∧
      Faulty role value .propertyWithoutType ∧
      Json.str "Page.open.options.size" = .str (dotted names) := by
  have hread : read (optionsPage untypedSize) =
      .error (.diagnosed ⟨.propertyWithoutType, .str "Page.open.options.size"⟩) := rfl
  constructor
  · exact ⟨_, rfl, (read_paths_exact (optionsPage sizeOrSizes)).1 _ rfl⟩
  · exact ⟨hread, (read_paths_exact (optionsPage untypedSize)).2 _ hread⟩

end Schema
end ApiBindings
