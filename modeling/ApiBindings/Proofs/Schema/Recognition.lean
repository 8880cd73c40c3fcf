import ApiBindings.Proofs.Schema.Grammar
/-!
# The reader recognizes the grammar

`Recognizes` relates a reading to a grammar: it succeeds on what is accepted, with
the one thing that is denoted, and fails with a schema failure on everything else.
The relation is kept when readings follow each other and when lists are read one by
one, so that reading types follows the clauses of the grammar, by one induction over
the values inside a value.
-/

namespace ApiBindings
namespace Schema

/-! ## Readings that follow a grammar -/

/-- A reading succeeds where something is accepted, with the one thing that is
denoted, and otherwise fails because of the shape of the description. -/
inductive Recognizes {α : Type} (accepted : Prop) (denoted : α → Prop) : Except Failure α → Prop
  | ok {a : α} (haccepted : accepted) (hdenoted : ∀ b, denoted b ↔ b = a) :
    Recognizes accepted denoted (.ok a)
  | error {cause : Cause} {path : Text} (hfamily : cause.family = .schemaShape)
      (haccepted : ¬accepted) (hdenoted : ∀ b, ¬denoted b) :
    Recognizes accepted denoted (.error (cause.atPath path))

namespace Recognizes

variable {α β : Type} {accepted accepted' : Prop} {denoted denoted' : α → Prop}
  {result : Except Failure α}

theorem congr (hresult : Recognizes accepted denoted result) (haccepted : accepted' ↔ accepted)
    (hdenoted : ∀ a, denoted' a ↔ denoted a) : Recognizes accepted' denoted' result := by
  obtain rfl : accepted' = accepted := propext haccepted
  obtain rfl : denoted' = denoted := funext fun a => propext (hdenoted a)
  exact hresult

theorem single (a : α) : Recognizes True (fun b => b = a) (.ok a) :=
  .ok trivial fun _ => .rfl

/-- The second reading is judged where the first one succeeded. -/
theorem guard {denoted' : β → Prop} {next : α → Except Failure β}
    (hresult : Recognizes accepted denoted result) (haccepted : accepted' → accepted)
    (hdenoted : ∀ b, denoted' b → ∃ a, denoted a)
    (hnext : ∀ a, accepted → (∀ b, denoted b ↔ b = a) →
      Recognizes accepted' denoted' (next a)) :
    Recognizes accepted' denoted' (result >>= next) := by
  cases hresult with
  | ok hfirst hsame => exact hnext _ hfirst hsame
  | error hfamily hrejected hnone =>
      refine .error hfamily (fun h => hrejected (haccepted h)) fun b hb => ?_
      obtain ⟨a, ha⟩ := hdenoted b hb
      exact hnone a ha

theorem bind {denoted' : α → β → Prop} {next : α → Except Failure β}
    (hresult : Recognizes accepted denoted result)
    (hnext : ∀ a, denoted a → Recognizes accepted' (denoted' a) (next a)) :
    Recognizes (accepted ∧ accepted') (fun b => ∃ a, denoted a ∧ denoted' a b)
      (result >>= next) := by
  apply hresult.guard And.left
  · rintro b ⟨a, ha, -⟩
    exact ⟨a, ha⟩
  · intro a hfirst hsame
    apply (hnext a ((hsame a).mpr rfl)).congr (and_iff_right hfirst)
    intro b
    simp only [hsame, exists_eq_left]

theorem map (change : α → β) (hresult : Recognizes accepted denoted result) :
    Recognizes accepted (fun b => ∃ a, denoted a ∧ b = change a)
      (do return change (← result)) :=
  (hresult.bind fun a _ => .single (change a)).congr (and_iff_left trivial).symm fun _ => .rfl

/-- A list is read one by one. -/
theorem each {accepted : Json → Prop} {denoted : Json → α → Prop}
    (read : Json → Except Failure α) {readEach : List Json → Except Failure (List α)}
    (hnil : readEach [] = .ok [])
    (hcons : ∀ item rest, readEach (item :: rest) = do
      let first ← read item
      return first :: (← readEach rest))
    {items : List Json}
    (hread : ∀ item ∈ items, Recognizes (accepted item) (denoted item) (read item)) :
    Recognizes (∀ item ∈ items, accepted item) (List.Forall₂ denoted items) (readEach items) := by
  induction items with
  | nil =>
      rw [hnil]
      exact (single []).congr (by simp) (by simp)
  | cons item rest ih =>
      obtain ⟨hfirst, hothers⟩ := List.forall_mem_cons.mp hread
      rw [hcons]
      apply (hfirst.bind fun first _ => (ih hothers).map (first :: ·)).congr List.forall_mem_cons
      intro all
      rw [List.forall₂_cons_left_iff]
      simp only [exists_and_left]

/-- A list stands under a key, or nothing does. -/
theorem listAt {accepted : Json → Prop} {denoted : Json → α → Prop} (key path : Text)
    (entries : List (Text × Json)) {readEach : List Json → Except Failure (List α)}
    (hread : ∀ items ∈ items? key entries,
      Recognizes (∀ item ∈ items, accepted item) (List.Forall₂ denoted items) (readEach items)) :
    Recognizes (∃ items ∈ items? key entries, ∀ item ∈ items, accepted item)
      (fun all => ∃ items ∈ items? key entries, List.Forall₂ denoted items all)
      (match Text.find? key entries with
        | none | some .null => .ok []
        | some (.arr items) => readEach items
        | some data => .error ((Cause.notAList key data).atPath path)) := by
  unfold items? at hread ⊢
  generalize Text.find? key entries = found at hread ⊢
  have hempty : Recognizes (∃ items ∈ some [], ∀ item ∈ items, accepted item)
      (fun all => ∃ items ∈ some [], List.Forall₂ denoted items all) (.ok []) :=
    (single []).congr (by simp) (by simp)
  match found, hread with
  | none, _ => exact hempty
  | some .null, _ => exact hempty
  | some (.arr items), hread => exact (hread items rfl).congr (by simp) (by simp)
  | some (.bool _), _ | some (.int _), _ | some (.float _), _ | some (.str _), _
  | some (.obj _), _ =>
      exact .error rfl (by simp) (by simp)

end Recognizes

/-! ## The reader -/

theorem readTypeAt_of_value? (key path : Text) (entries : List (Text × Json)) :
    readTypeAt key path entries = match value? key entries with
      | none => .ok none
      | some value => do return some (← readType path value) := by
  rw [readTypeAt_eq]
  unfold value?
  cases Text.find? key entries with
  | none => rfl
  | some value => cases value <;> rfl

theorem recognizes_named (allowEmpty : Bool) (path : Text) (entries : List (Text × Json)) :
    Recognizes
      (∃ name : Text, Text.find? "name" entries = some (.str name) ∧
        (name = "" → allowEmpty = true))
      (fun found => ∃ name : Text, Text.find? "name" entries = some (.str name) ∧
        (name = "" → allowEmpty = true) ∧ found = (entries, name))
      (named allowEmpty path (.obj entries)) := by
  unfold named
  dsimp only
  split
  next name hname =>
    split
    next hempty => exact .error rfl (by simp_all) (by simp_all)
    next hempty => exact .ok ⟨name, hname, by simpa using hempty⟩ (by simp_all)
  next hname => exact .error rfl (by simp_all) (by simp_all)

section

variable {path name : Text} {entries : List (Text × Json)}

theorem templatedType_eq_ok_iff {templates : List TypeNode} {node : TypeNode} :
    templatedType name path templates = .ok node ↔
      (name = "Array" ∧ ∃ element, templates = [element] ∧ node = .array path element) ∨
      ((name = "Map" ∨ name = "Object") ∧
        ∃ key value, templates = [key, value] ∧ node = .map name path key value) ∨
      (name ∉ (["Array", "Map", "Object"] : List Text) ∧ node = .generic name path templates) := by
  unfold templatedType
  by_cases harray : name = "Array"
  · subst harray
    match templates with
    | [element] => simp +decide [eq_comm]
    | [] | _ :: _ :: _ => simp +decide
  · by_cases hmap : name = "Map" ∨ name = "Object"
    · match templates with
      | [key, value] => simp [harray, hmap, eq_comm]
      | [] | [_] | _ :: _ :: _ :: _ => simp [harray, hmap]
    · simp [harray, hmap, eq_comm]

theorem recognizes_templatedType {templates : List TypeNode} (hnonempty : templates ≠ []) :
    Recognizes (TakesArguments name templates.length)
      (fun node => templatedType name path templates = .ok node)
      (templatedType name path templates) := by
  unfold templatedType TakesArguments
  by_cases harray : name = "Array"
  · subst harray
    match templates with
    | [] => contradiction
    | [element] => exact .ok (by simp +decide) (by simp [eq_comm])
    | _ :: _ :: _ => exact .error rfl (by simp +decide) (by simp)
  · by_cases hmap : name = "Map" ∨ name = "Object"
    · match templates with
      | [] => contradiction
      | [key, value] =>
          simp only [harray, hmap]
          exact .ok (by simp +decide) (by simp [eq_comm])
      | [_] | _ :: _ :: _ :: _ =>
          simp only [harray, hmap]
          exact .error rfl (by simp +decide) (by simp)
    · simp only [harray, hmap]
      exact .ok (by simp +decide) (by simp [eq_comm])

theorem denotesAt_templated_iff {items : List Json} {templates : List TypeNode}
    (hname : Text.find? "name" entries = some (.str name))
    (hunion : Text.find? "union" entries = none) (hfunction : name ≠ "function")
    (hlist : items ∈ items? "templates" entries) (hnonempty : items ≠ [])
    (htemplates : ∀ nodes, List.Forall₂ (DenotesAt path) items nodes ↔ nodes = templates)
    (node : TypeNode) :
    DenotesAt path (.obj entries) node ↔ templatedType name path templates = .ok node := by
  have hargs := (htemplates templates).mpr rfl
  rw [templatedType_eq_ok_iff]
  -- Whichever clause denotes the node, its arguments are the templates that were read.
  constructor
  · rintro ⟨hdenotes, hlocated⟩
    obtain rfl := hdenotes.name_eq hname
    cases hdenotes with
    | array _ _ hlist' helement =>
        obtain rfl := Option.mem_unique hlist hlist'
        cases hlocated with
        | array hlocated =>
            exact .inl ⟨rfl, _, ((htemplates _).mp (.cons ⟨helement, hlocated⟩ .nil)).symm, rfl⟩
    | map _ _ hmap hlist' hkey hvalue =>
        obtain rfl := Option.mem_unique hlist hlist'
        cases hlocated with
        | map hlocatedKey hlocatedValue =>
            have hsame := (htemplates _).mp
              (.cons ⟨hkey, hlocatedKey⟩ (.cons ⟨hvalue, hlocatedValue⟩ .nil))
            exact .inr (.inl ⟨hmap, _, _, hsame.symm, rfl⟩)
    | generic _ _ hother hlist' _ hargs' =>
        obtain rfl := Option.mem_unique hlist hlist'
        cases hlocated with
        | generic hlocated =>
            obtain rfl := (htemplates _).mp (denotesAt_each_iff.mpr ⟨hargs', hlocated⟩)
            exact .inr (.inr ⟨fun hmem => hother (List.mem_cons_of_mem _ hmem), rfl⟩)
    | _ => simp_all
  · rintro (⟨rfl, element, rfl, rfl⟩ | ⟨hmap, key, value, rfl, rfl⟩ | ⟨hother, rfl⟩)
    · cases hargs with
      | cons helement hnil =>
          cases hnil
          exact ⟨.array hname hunion hlist helement.denotes, .array helement.located⟩
    · cases hargs with
      | cons hkey hrest =>
          cases hrest with
          | cons hvalue hnil =>
              cases hnil
              exact ⟨.map hname hunion hmap hlist hkey.denotes hvalue.denotes,
                .map hkey.located hvalue.located⟩
    · obtain ⟨hargs, hlocated⟩ := denotesAt_each_iff.mp hargs
      have hother' : name ∉ (["function", "Array", "Map", "Object"] : List Text) :=
        fun hmem => (List.mem_cons.mp hmem).elim hfunction hother
      exact ⟨.generic hname hunion hother' hlist hnonempty hargs, .generic hlocated⟩

end

/-- A value is read as a type, whatever place it is read for. -/
def RecognizesType (data : Json) : Prop :=
  ∀ path, Recognizes (WellFormed data) (DenotesAt path data) (readType path data)

section

variable {path : Text} {entries : List (Text × Json)}

theorem recognizes_readTypesAt (key : Text)
    (hread : ∀ inner, Json.Below inner (.obj entries) → RecognizesType inner) :
    Recognizes (∃ items ∈ items? key entries, ∀ item ∈ items, WellFormed item)
      (fun nodes => ∃ items ∈ items? key entries, List.Forall₂ (DenotesAt path) items nodes)
      (readTypesAt key path entries) := by
  rw [readTypesAt_eq]
  apply Recognizes.listAt
  intro items hitems
  apply Recognizes.each (readType path) (by rw [readTypes]) (fun _ _ => by rw [readTypes])
  intro item hitem
  exact hread item (below_of_mem_items? hitems hitem) path

theorem recognizes_readTypeAt (key : Text)
    (hread : ∀ inner, Json.Below inner (.obj entries) → RecognizesType inner) :
    Recognizes (∀ value ∈ value? key entries, WellFormed value)
      (Option.Rel (DenotesAt path) (value? key entries)) (readTypeAt key path entries) := by
  have hbelow : ∀ value ∈ value? key entries, Json.Below value (.obj entries) :=
    fun _ => below_of_mem_value?
  rw [readTypeAt_of_value?]
  cases hvalue : value? key entries with
  | none => exact (Recognizes.single none).congr (by simp) (fun node => by cases node <;> simp)
  | some value =>
      apply ((hread value (hbelow value hvalue) path).map some).congr (by simp)
      intro node
      cases node <;> simp

theorem recognizes_readSlot {data : Json}
    (hread : ∀ inner, Json.Below inner data → RecognizesType inner) :
    Recognizes (WellFormedProperty data) (DenotesPropertyIn path data)
      (readSlot .property path data) := by
  cases data with
  | obj entries =>
      rw [readSlot]
      apply (recognizes_named false path entries).guard
      · rintro ⟨hname, hnonempty, _, _⟩
        exact ⟨_, hname, fun hempty => absurd hempty hnonempty⟩
      · rintro slot ⟨⟨hname, hnonempty, _, _⟩, _⟩
        exact ⟨_, _, hname, fun hempty => absurd hempty hnonempty, rfl⟩
      · rintro ⟨_, name⟩ - hsame
        obtain ⟨name', hname, hempty, heq⟩ := (hsame _).mpr rfl
        cases heq
        have hnonempty : name ≠ "" := fun h => Bool.false_ne_true (hempty h)
        apply ((recognizes_readTypeAt "type" hread).bind ?_).congr
          ((wellFormedProperty_iff hname hnonempty).trans and_comm)
          (denotesPropertyIn_iff_type hname hnonempty)
        intro type htype
        cases type with
        | none =>
            refine .error rfl ?_ (by simp)
            cases hvalue : value? "type" entries <;> simp_all
        | some node =>
            refine .ok ?_ (by simp)
            cases hvalue : value? "type" entries <;> simp_all
  | _ =>
      simp only [readSlot]
      refine .error rfl ?_ ?_
      · rintro ⟨⟩
      · rintro slot ⟨⟨⟩, -⟩

theorem recognizes_readSlotsAt
    (hread : ∀ inner, Json.Below inner (.obj entries) → RecognizesType inner) :
    Recognizes (∃ items ∈ items? "properties" entries, ∀ item ∈ items, WellFormedProperty item)
      (fun slots => ∃ items ∈ items? "properties" entries,
        List.Forall₂ (DenotesPropertyIn path) items slots)
      (readSlotsAt "properties" path entries) := by
  rw [readSlotsAt_eq]
  apply Recognizes.listAt
  intro items hitems
  apply Recognizes.each (readSlot .property path) (by rw [readSlots])
    (fun _ _ => by rw [readSlots])
  intro item hitem
  exact recognizes_readSlot fun inner hinner =>
    hread inner (hinner.trans (below_of_mem_items? hitems hitem))

theorem recognizes_function
    (hread : ∀ inner, Json.Below inner (.obj entries) → RecognizesType inner)
    (hname : Text.find? "name" entries = some (.str "function"))
    (hunion : Text.find? "union" entries = none) :
    Recognizes (WellFormed (.obj entries)) (DenotesAt path (.obj entries))
      (if (Text.find? "args" entries).isSome then do
        let args ← readTypesAt "args" path entries
        return .function path args (← readTypeAt "returnType" path entries)
      else do return .bareFunction path (← readTypeAt "returnType" path entries)) := by
  have hresult : Recognizes _ _ (readTypeAt "returnType" path entries) :=
    recognizes_readTypeAt "returnType" hread
  split
  next hsome =>
    have hkey : Text.find? "args" entries ≠ none := by
      simpa [Option.isSome_iff_ne_none] using hsome
    exact ((recognizes_readTypesAt "args" hread).bind
      fun args _ => hresult.map (TypeNode.function path args)).congr
        (wellFormed_function_iff hname hunion) (denotesAt_function_iff hname hunion hkey)
  next hnone =>
    have hkey : Text.find? "args" entries = none := by simpa using hnone
    apply (hresult.map (TypeNode.bareFunction path)).congr _
      (denotesAt_bareFunction_iff hname hunion hkey)
    simp [wellFormed_function_iff hname hunion, items?, hkey]

/-- A type without a union key that is not a function. -/
theorem recognizes_plain {name : Text}
    (hread : ∀ inner, Json.Below inner (.obj entries) → RecognizesType inner)
    (hname : Text.find? "name" entries = some (.str name))
    (hunion : Text.find? "union" entries = none) (hfunction : name ≠ "function") :
    Recognizes (WellFormed (.obj entries)) (DenotesAt path (.obj entries)) (do
      let templates ← readTypesAt "templates" path entries
      if !templates.isEmpty then templatedType name path templates
      else if name = "Object" then
        return .record path (← readSlotsAt "properties" path entries)
      else if name = "" then throw (Cause.typeWithoutName.atPath path)
      else return .primitive name path) := by
  -- The templates are read before the name decides, so the grammar has to reject a
  -- type with bad templates whatever its name.
  apply (recognizes_readTypesAt "templates" hread).guard
    (fun hwell => hwell.templates hname hunion hfunction)
    (fun _ hnode => hnode.templates hname hunion hfunction)
  rintro templates ⟨items, hlist, hwell⟩ hsame
  obtain ⟨items', hlist', hargs⟩ := (hsame templates).mpr rfl
  obtain rfl := Option.mem_unique hlist hlist'
  cases hargs with
  | nil =>
      simp only [List.isEmpty_nil, Bool.not_true, Bool.false_eq_true, if_false]
      split
      next hobject =>
        subst hobject
        exact ((recognizes_readSlotsAt hread).map (TypeNode.record path)).congr
          (wellFormed_record_iff hname hunion hlist) (denotesAt_record_iff hname hunion hlist)
      next hobject =>
        have hwell := wellFormed_primitive_iff hname hunion hfunction hlist hobject
        have hnode : ∀ node, DenotesAt path (.obj entries) node ↔ _ :=
          denotesAt_primitive_iff hname hunion hfunction hlist hobject
        split
        next hempty => exact .error rfl (by simp [hwell, hempty]) (by simp [hnode, hempty])
        next hempty => exact .ok (hwell.mpr hempty) (by simp [hnode, hempty])
  | cons hfirst hrest =>
      simp only [List.isEmpty_cons, Bool.not_false, if_true]
      apply (recognizes_templatedType (List.cons_ne_nil _ _)).congr
      · rw [wellFormed_templated_iff hname hunion hfunction hlist (List.cons_ne_nil _ _) hwell]
        simp [hrest.length_eq]
      · apply denotesAt_templated_iff hname hunion hfunction hlist (List.cons_ne_nil _ _)
        simpa [Option.mem_def.mp hlist] using hsame

theorem recognizes_readType (data : Json) : RecognizesType data := by
  -- Not by the constructors of a value: the type of a property lies two lists and an
  -- object deeper than the type that has the property.
  induction data using Json.wellFounded_below.induction with
  | _ data hread =>
      intro path
      cases data with
      | obj entries =>
          rw [readType]
          apply (recognizes_named true path entries).guard
          · intro hwell
            obtain ⟨name, hname⟩ := hwell.hasName
            exact ⟨name, hname, fun _ => rfl⟩
          · intro node hnode
            exact ⟨_, _, hnode.denotes.hasName, fun _ => rfl, rfl⟩
          · rintro ⟨_, name⟩ - hsame
            obtain ⟨_, hname, -, heq⟩ := (hsame _).mpr rfl
            cases heq
            dsimp only
            split
            next hsome =>
              have hunion : Text.find? "union" entries ≠ none := by
                simpa [Option.isSome_iff_ne_none] using hsome
              exact ((recognizes_readTypesAt "union" hread).map (TypeNode.union name path)).congr
                (wellFormed_union_iff hname hunion) (denotesAt_union_iff hname hunion)
            next hnone =>
              have hunion : Text.find? "union" entries = none := by simpa using hnone
              split
              next hfunction =>
                subst hfunction
                exact recognizes_function hread hname hunion
              next hfunction => exact recognizes_plain hread hname hunion hfunction
      | _ =>
          simp only [readType]
          refine .error rfl ?_ ?_
          · rintro ⟨⟩
          · rintro node ⟨⟨⟩, -⟩

end

/-- Exactly the well-formed values can be read as types, all others are refused
for their shape, and what is read is the node that the value stands for, located
at the path that it was read for. -/
theorem readType_grammar (path : Text) (data : Json) :
    (WellFormed data ↔ ∃ node, readType path data = .ok node) ∧
    (¬WellFormed data ↔ ∃ diagnosis, readType path data = .error (.diagnosed diagnosis) ∧
      diagnosis.cause.family = .schemaShape) ∧
    ∀ node, readType path data = .ok node ↔ Denotes data node ∧ node.LocatedAt path := by
  have hread := recognizes_readType data path
  generalize readType path data = result at hread
  cases hread with
  | @ok node hwell hdenoted =>
      refine ⟨by simp [hwell], by simp [hwell], fun other => ?_⟩
      rw [← denotesAt_iff, hdenoted, Except.ok.injEq, eq_comm]
  | @error cause place hfamily hrejected hnone =>
      refine ⟨by simp [hrejected], ?_, fun other => ?_⟩
      · exact iff_of_true hrejected ⟨⟨cause, .str place⟩, rfl, hfamily⟩
      · rw [← denotesAt_iff]
        simp [hnone other]

/-- Reading decides the grammar. -/
instance (data : Json) : Decidable (WellFormed data) :=
  decidable_of_iff ((readType "" data).toBool = true) (by
    have hread := recognizes_readType data ""
    generalize readType "" data = result at hread
    cases hread with
    | ok hwell _ => simp [hwell, Except.toBool]
    | error _ hrejected _ => simp [hrejected, Except.toBool])

-- A null union has no members, which is different from having no union key.
example : WellFormed (.obj [("name", .str ""), ("union", .null)]) ∧
    ¬WellFormed (.obj [("name", .str "")]) := by decide

end Schema
end ApiBindings
