import ApiBindings.Proofs.Resolution.Variants
import Mathlib.Data.List.Basic
/-!
# Maps named `Object`

A map named `Object` has to be one from texts to texts or to anything, and what is compared
is its canonical expression.  An expression hardly ever hides what it is the expression of:
names and separators tell its parts apart.  But an anonymous union of one type has the
expression of that type.  So a union of `string` alone is accepted as a key, too.  For most
owners the conversion of the union fails then; in a field it becomes any object, and the map
is one from objects.
-/

namespace ApiBindings
namespace TypeNode

/-! ## Types that have a word for their expression -/

/-- A word that is no expression of a type with parts, and none of a bare function or of a
record. -/
structure IsWord (word : Text) : Prop where
  nonempty : word ≠ []
  function : word ≠ "function"
  object : word ≠ "Object"
  whole : ∀ c ∈ word, c ≠ .char '<' ∧ c ≠ .char '|' ∧ c ≠ .char '('

/-- The types that are written as a word: the type of that name, with or without an empty
list of arguments, and any anonymous union of one such type. -/
inductive SpelledAs (word : Text) : TypeNode → Prop
  | primitive (path : Text) : SpelledAs word (.primitive word path)
  | generic (path : Text) : SpelledAs word (.generic word path [])
  | union (path : Text) {member : TypeNode} (hmember : SpelledAs word member) :
    SpelledAs word (.union "" path [member])

variable {word : Text}

theorem IsWord.ne_templated (hword : IsWord word) (name : Text) {args : List Text}
    (hargs : args ≠ []) : templated name args ≠ word := by
  intro heq
  have hbracket : Code.char '<' ∈ templated name args := by
    simp [templated, hargs, Text.ofString, Text.ofChars]
  rw [heq] at hbracket
  exact (hword.whole _ hbracket).1 rfl

theorem mem_join_of_several {separator first second : Text} {rest : List Text} {c : Code}
    (hc : c ∈ separator) : c ∈ Text.join separator (first :: second :: rest) := by
  rw [Text.join, List.intercalate_cons_cons]
  simp [hc]

theorem IsWord.ne_unionExpression_named (hword : IsWord word) {name : Text} (hname : name ≠ "")
    (members : List Text) : unionExpression name members ≠ word := by
  intro heq
  rw [unionExpression, if_neg hname] at heq
  have hbracket : Code.char '<' ∈ word := by
    rw [← heq]
    simp [Text.ofString, Text.ofChars]
  exact (hword.whole _ hbracket).1 rfl

theorem IsWord.ne_unionExpression_several (hword : IsWord word) {members : List Text}
    (hseveral : members.length ≠ 1) : unionExpression "" members ≠ word := by
  intro heq
  rw [unionExpression, if_pos rfl] at heq
  have hlength : (members.mergeSort Text.le).length = members.length :=
    List.length_mergeSort members
  generalize members.mergeSort Text.le = sorted at heq hlength
  match sorted with
  | [] => exact hword.nonempty heq.symm
  | [single] => exact hseveral hlength.symm
  | first :: second :: rest =>
      have hbar : Code.char '|' ∈ Text.join "|" (first :: second :: rest) :=
        mem_join_of_several (List.mem_singleton_self _)
      rw [heq] at hbar
      exact (hword.whole _ hbar).2.1 rfl

theorem IsWord.ne_function (hword : IsWord word) (path : Text) (args : List TypeNode)
    (result : Option TypeNode) : (TypeNode.function path args result).expression ≠ word := by
  intro heq
  have hparen : Code.char '(' ∈ (TypeNode.function path args result).expression := by
    cases result <;> simp [expression, Text.ofString, Text.ofChars]
  rw [heq] at hparen
  exact (hword.whole _ hparen).2.2 rfl

theorem unionExpression_alone (member : Text) : unionExpression "" [member] = member := by
  simp [unionExpression, Text.join]

theorem SpelledAs.of_expression (hword : IsWord word) (node : TypeNode)
    (heq : node.expression = word) : node.SpelledAs word := by
  cases node with
  | primitive name path =>
      rw [expression] at heq
      subst heq
      exact .primitive path
  | array path element =>
      rw [expression] at heq
      exact absurd heq (hword.ne_templated _ (by simp))
  | map name path key value =>
      rw [expression] at heq
      exact absurd heq (hword.ne_templated _ (by simp))
  | union name path members =>
      rw [expression] at heq
      by_cases hname : name = ""
      · subst hname
        rcases members with _ | ⟨member, _ | ⟨other, rest⟩⟩
        · exact absurd heq (hword.ne_unionExpression_several (by simp [expressions]))
        · rw [expressions, expressions, unionExpression_alone] at heq
          exact .union path (of_expression hword member heq)
        · exact absurd heq (hword.ne_unionExpression_several (by simp [expressions]))
      · exact absurd heq (hword.ne_unionExpression_named hname _)
  | generic name path args =>
      rw [expression] at heq
      cases args with
      | nil =>
          have hname : name = word := heq
          subst hname
          exact .generic path
      | cons arg rest =>
          rw [expressions] at heq
          exact absurd heq (hword.ne_templated _ (by simp))
  | bareFunction path result =>
      rw [expression] at heq
      exact absurd heq.symm hword.function
  | function path args result => exact absurd heq (hword.ne_function _ _ _)
  | record path properties =>
      rw [expression] at heq
      exact absurd heq.symm hword.object
termination_by structural node

/-- The types that are written as a word are those that have it for their expression. -/
theorem expression_eq_iff (hword : IsWord word) {node : TypeNode} :
    node.expression = word ↔ node.SpelledAs word := by
  constructor
  · exact SpelledAs.of_expression hword node
  · intro hspelled
    induction hspelled with
    | primitive path => rw [expression]
    | generic path => rfl
    | union path _ ih =>
        rw [expression, expressions, expressions, unionExpression_alone]
        exact ih

theorem isWord_string : IsWord "string" := by
  constructor <;> decide

theorem isWord_any : IsWord "any" := by
  constructor <;> decide

/-! ## Expressions of maps from texts -/

theorem objectMaps_eq :
    objectMaps = [templated "Object" ["string", "string"], templated "Object" ["string", "any"]] := by
  decide

/-- The key and the value of a map are told apart by the first comma. -/
theorem templated_eq_iff {key value word : Text} (hword : .char ',' ∉ word) :
    templated "Object" [key, value] = templated "Object" ["string", word] ↔
      key = "string" ∧ value = word := by
  have hpair : ∀ k v : Text, templated "Object" [k, v] =
      Text.ofString "Object<" ++ ((k ++ .char ',' :: .char ' ' :: v) ++ Text.ofString ">") := by
    intro k v
    simp [templated, Text.join, Text.ofString, Text.ofChars]
  have hstring : Code.char ',' ∉ Text.ofString "string" := by decide
  rw [hpair, hpair, List.append_cancel_left_eq, List.append_cancel_right_eq, eq_comm,
    List.append_cons_inj_of_notMem hstring (by simpa using hword)]
  simp [eq_comm]

theorem objectMap_isPlain_iff {path : Text} {key value : TypeNode} :
    objectMaps.contains (TypeNode.map "Object" path key value).expression = true ↔
      key.SpelledAs "string" ∧ (value.SpelledAs "string" ∨ value.SpelledAs "any") := by
  rw [expression, objectMaps_eq, List.contains_iff_mem, List.mem_pair,
    templated_eq_iff (by decide), templated_eq_iff (by decide), ← and_or_left,
    expression_eq_iff isWord_string, expression_eq_iff isWord_string,
    expression_eq_iff isWord_any]

end TypeNode

namespace Resolving

/-! ## How accepted maps are written -/

/-- How a part of a map is written that has to be of a type with one of these names: the
type itself by its own spelling, and in a field a union of it alone as any object. -/
inductive PartSpelled (kind : OwnerKind) (words : List Text) : TypeNode → Text → Prop
  | primitive {word : Text} (hword : word ∈ words) (path : Text) :
    PartSpelled kind words (.primitive word path) (Java.primitive word)
  | union (hkind : kind = .field) (path : Text) {word : Text} (hword : word ∈ words)
      {member : TypeNode} (hmember : member.SpelledAs word) :
    PartSpelled kind words (.union "" path [member]) Java.objectType

/-- How a map named `Object` with this key and value is written, if it is accepted. -/
inductive MapSpelled (kind : OwnerKind) (key value : TypeNode) : Text → Prop
  | mk {k v : Text} (hkey : PartSpelled kind ["string"] key k)
      (hvalue : PartSpelled kind ["string", "any"] value v) :
    MapSpelled kind key value ("Map<" ++ k ++ ", " ++ v ++ ">")

/-- A type is refused because it has no mapping, or as a union that needs a name. -/
def RefusesShape (failure : Failure) : Prop :=
  ∃ cause path, failure = Cause.atPath cause path ∧
    (cause.family = .unsupportedTypeShape ∨ cause.family = .unnamedUnion)

section

variable {kind : OwnerKind} {words : List Text} {node key value : TypeNode}
  {spelling spelling' : Text}

theorem PartSpelled.exists_word (hpart : PartSpelled kind words node spelling) :
    ∃ word ∈ words, node.SpelledAs word := by
  cases hpart with
  | primitive hword path => exact ⟨_, hword, .primitive path⟩
  | union hkind path hword hmember => exact ⟨_, hword, .union path hmember⟩

theorem PartSpelled.unique (hpart : PartSpelled kind words node spelling)
    (hpart' : PartSpelled kind words node spelling') : spelling = spelling' := by
  cases hpart <;> cases hpart' <;> rfl

/-- The parts of a map from texts are written alike inside and outside of type arguments. -/
theorem PartSpelled.boxText_eq (hwords : words ⊆ ["string", "any"])
    (hpart : PartSpelled kind words node spelling) : Java.boxText spelling = spelling := by
  cases hpart with
  | primitive hword path =>
      rcases List.mem_pair.mp (hwords hword) with rfl | rfl
      · decide
      · decide
  | union => decide

theorem MapSpelled.unique (hmap : MapSpelled kind key value spelling)
    (hmap' : MapSpelled kind key value spelling') : spelling = spelling' := by
  rcases hmap with ⟨hkey, hvalue⟩
  rcases hmap' with ⟨hkey', hvalue'⟩
  rw [hkey.unique hkey', hvalue.unique hvalue']

theorem MapSpelled.isPlain (hmap : MapSpelled kind key value spelling) (path : Text) :
    objectMaps.contains (TypeNode.map "Object" path key value).expression = true := by
  rcases hmap with ⟨hkey, hvalue⟩
  rcases hkey.exists_word with ⟨word, hword, hspelled⟩
  rcases hvalue.exists_word with ⟨word', hword', hspelled'⟩
  rw [TypeNode.objectMap_isPlain_iff]
  obtain rfl := List.mem_singleton.mp hword
  rcases List.mem_pair.mp hword' with rfl | rfl
  · exact ⟨hspelled, .inl hspelled'⟩
  · exact ⟨hspelled, .inr hspelled'⟩

theorem mapOf_of_boxText {k v : Text} (hk : Java.boxText k = k) (hv : Java.boxText v = v) :
    Java.mapOf (.str k) (.str v) = .ok ("Map<" ++ k ++ ", " ++ v ++ ">") := by
  have hboxed : Java.mapOf (.str k) (.str v) =
      .ok ("Map" ++ "<" ++ Text.join ", " [Java.boxText k, Java.boxText v] ++ ">") := rfl
  rw [hboxed, hk, hv]
  simp [Text.join, Text.ofString, Text.ofChars]

end

/-! ## Conversion -/

/-- A conversion gives the spelling that there is, or refuses the type if there is none.  No
class is made on the way. -/
def SpellsOrRefuses (spelled : Text → Prop) (made : Option TypeRef)
    (step : Resolving (TypeRef × Option TypeRef)) : Prop :=
  (∃ spelling, spelled spelling ∧ step = pure (.builtin spelling, made)) ∨
    (∀ spelling, ¬spelled spelling) ∧ ∃ failure, RefusesShape failure ∧ step = throw failure

section

variable {settings : Settings} {owner : Owner} {address : Address} {made : Option TypeRef}

/-- A part that is written as a word is converted to its spelling, or refused. -/
theorem convert_part {words : List Text} (hnull : Text.ofString "null" ∉ words)
    {node : TypeNode} (hspelled : ∃ word ∈ words, node.SpelledAs word) :
    SpellsOrRefuses (PartSpelled owner.kind words node) made
      (convert settings owner address .inner false made node) := by
  rcases hspelled with ⟨word, hword, hspelled⟩
  cases hspelled with
  | primitive path =>
      left
      refine ⟨_, .primitive hword path, ?_⟩
      rw [convert, if_neg]
      rintro rfl
      exact hnull hword
  | generic path =>
      right
      exact ⟨nofun, _, ⟨_, _, rfl, .inl rfl⟩, rfl⟩
  | @union path member hmember =>
      rw [convert, if_neg (not_not_intro rfl)]
      cases hkind : owner.kind with
      | field => exact .inl ⟨_, .union rfl path hword hmember, rfl⟩
      | method => exact .inr ⟨nofun, _, ⟨_, _, rfl, .inr rfl⟩, rfl⟩
      | param => exact .inr ⟨nofun, _, ⟨_, _, rfl, .inr rfl⟩, rfl⟩
      | event => exact .inr ⟨nofun, _, ⟨_, _, rfl, .inr rfl⟩, rfl⟩

end

/-- A map named `Object` is converted to its spelling, or refused. -/
theorem convert_map (settings : Settings) (owner : Owner) (address : Address) (depth : Depth)
    (fixed : Bool) (made : Option TypeRef) (path : Text) (key value : TypeNode) :
    SpellsOrRefuses (MapSpelled owner.kind key value) made
      (convert settings owner address depth fixed made (.map "Object" path key value)) := by
  rw [convert]
  cases hplain : objectMaps.contains (TypeNode.map "Object" path key value).expression with
  | false =>
      right
      refine ⟨?_, _, ⟨.unsupportedMap (TypeNode.map "Object" path key value).expression, path,
        rfl, .inl rfl⟩, rfl⟩
      intro spelling hmap
      rw [hmap.isPlain path] at hplain
      exact nomatch hplain
  | true =>
      rcases TypeNode.objectMap_isPlain_iff.mp hplain with ⟨hkey, hvalue⟩
      have hfirst : SpellsOrRefuses (PartSpelled owner.kind ["string"] key) made
          (convert settings owner address .inner false made key) :=
        convert_part (by decide) (by simpa using hkey)
      have hsecond : SpellsOrRefuses (PartSpelled owner.kind ["string", "any"] value) made
          (convert settings owner address .inner false made value) :=
        convert_part (by decide) (by simpa using hvalue)
      simp only [Bool.not_true, Bool.false_eq_true, and_false, if_false]
      rcases hfirst with ⟨k, hk, hconvert⟩ | ⟨hnone, failure, hrefuses, hconvert⟩
      · rw [hconvert, pure_bind]
        rcases hsecond with ⟨v, hv, hconvert'⟩ | ⟨hnone, failure, hrefuses, hconvert'⟩
        · left
          have hspelling : Java.mapOf (TypeRef.builtin k).name (TypeRef.builtin v).name = .ok _ :=
            mapOf_of_boxText (hk.boxText_eq (by simp)) (hv.boxText_eq (by simp))
          refine ⟨_, ⟨hk, hv⟩, ?_⟩
          rw [hconvert', pure_bind, hspelling]
          rfl
        · right
          refine ⟨?_, failure, hrefuses, ?_⟩
          · rintro spelling ⟨-, hv⟩
            exact hnone _ hv
          · rw [hconvert']
            rfl
      · right
        refine ⟨?_, failure, hrefuses, ?_⟩
        · rintro spelling ⟨hk, -⟩
          exact hnone _ hk
        · rw [hconvert]
          rfl

/-- Where no anonymous union stands in a field, only types of the names themselves are
accepted. -/
theorem mapSpelled_iff_of_named {kind : OwnerKind} {key value : TypeNode} {spelling : Text}
    (hnamed : kind = .field → key.isAnonymousUnion = false ∧ value.isAnonymousUnion = false) :
    MapSpelled kind key value spelling ↔
      ∃ keyPath valuePath, key = .primitive "string" keyPath ∧
        (value = .primitive "string" valuePath ∧ spelling = "Map<String, String>" ∨
          value = .primitive "any" valuePath ∧ spelling = "Map<String, Object>") := by
  constructor
  · rintro ⟨hkey, hvalue⟩
    cases hkey with
    | union hkind path hword hmember => exact absurd (hnamed hkind).1 nofun
    | primitive hword keyPath =>
        obtain rfl := List.mem_singleton.mp hword
        cases hvalue with
        | union hkind path hword hmember => exact absurd (hnamed hkind).2 nofun
        | primitive hword valuePath =>
            refine ⟨keyPath, valuePath, rfl, ?_⟩
            rcases List.mem_pair.mp hword with rfl | rfl
            · exact .inl ⟨rfl, by decide⟩
            · exact .inr ⟨rfl, by decide⟩
  · have hpart : ∀ {words : List Text} (word path : Text), word ∈ words →
        PartSpelled kind words (.primitive word path) (Java.primitive word) :=
      fun _ path hword => .primitive hword path
    rintro ⟨keyPath, valuePath, rfl, ⟨rfl, rfl⟩ | ⟨rfl, rfl⟩⟩
    · exact ⟨hpart "string" keyPath (by simp), hpart "string" valuePath (by simp)⟩
    · exact ⟨hpart "string" keyPath (by simp), hpart "any" valuePath (by simp)⟩

/-- A map named `Object` is converted exactly if its key is the type `string` and its value
that type or `any`, or, in a field, an anonymous union of one of these alone in its place.
It is written as the map of its parts then, and refused otherwise.  Where no such union
stands in a field, these are the maps from texts to texts and those from texts to anything. -/
theorem convert_objectMap (settings : Settings) (owner : Owner) (address : Address)
    (depth : Depth) (fixed : Bool) (made : Option TypeRef) (path : Text) (key value : TypeNode)
    (known : Knowledge) :
    let ended := outcome
      (convert settings owner address depth fixed made (.map "Object" path key value)) known
    ended.2 = known ∧
      (∀ result, ended.1 = .ok result ↔ ∃ spelling,
        MapSpelled owner.kind key value spelling ∧ result = (.builtin spelling, made)) ∧
      (∀ failure, ended.1 = .error failure → RefusesShape failure) ∧
      ((owner.kind = .field → key.isAnonymousUnion = false ∧ value.isAnonymousUnion = false) →
        ∀ spelling, MapSpelled owner.kind key value spelling ↔
          ∃ keyPath valuePath, key = .primitive "string" keyPath ∧
            (value = .primitive "string" valuePath ∧ spelling = "Map<String, String>" ∨
              value = .primitive "any" valuePath ∧ spelling = "Map<String, Object>")) := by
  intro ended
  rcases convert_map settings owner address depth fixed made path key value with
    ⟨spelling, hmap, hconvert⟩ | ⟨hnone, failure, hrefuses, hconvert⟩
  · have hended : ended = (.ok (.builtin spelling, made), known) := by
      simp only [ended, hconvert, outcome_pure]
    rw [hended]
    refine ⟨rfl, fun result => ⟨fun hresult => ?_, ?_⟩, fun _ => nofun,
      fun hnamed _ => mapSpelled_iff_of_named hnamed⟩
    · exact ⟨spelling, hmap, (Except.ok.inj hresult).symm⟩
    · rintro ⟨other, hother, rfl⟩
      rw [hmap.unique hother]
  · have hended : ended = (.error failure, known) := by
      simp only [ended, hconvert, outcome_throw]
    rw [hended]
    refine ⟨rfl, fun result => ⟨nofun, ?_⟩, fun other hfailed => ?_,
      fun hnamed _ => mapSpelled_iff_of_named hnamed⟩
    · rintro ⟨spelling, hmap, -⟩
      exact absurd hmap (hnone spelling)
    · obtain rfl := Except.error.inj hfailed
      exact hrefuses

/-! ## Headers of one type -/

/-- The path of the option. -/
def headersPath : Text := "Page.fetch.options.headers"

/-- The owner of the type of the option. -/
def headersOwner : Owner := ⟨headersPath, .field, "headers", "FetchOptions", "Page"⟩

def headerText : TypeNode := .primitive "string" headersPath

/-- An anonymous union of texts alone. -/
def headerName : TypeNode := .union "" headersPath [headerText]

/-- A map to texts is accepted, and written with objects for keys, although its key is not
the type `string`. -/
theorem lone_union_accepted_as_key :
    let ended := outcome (convert .defaults headersOwner [0, 0] .outer false none
      (.map "Object" headersPath headerName headerText)) .empty
    ended.1 = .ok (.builtin "Map<Object, String>", none) ∧
      ¬((∃ result, ended.1 = .ok result) ↔
        (∃ path, headerName = .primitive "string" path) ∧
          ∃ path, headerText = .primitive "string" path ∨ headerText = .primitive "any" path) := by
  intro ended
  have hkey : PartSpelled headersOwner.kind ["string"] headerName Java.objectType :=
    .union rfl headersPath (List.mem_singleton_self _) (.primitive headersPath)
  have hvalue : PartSpelled headersOwner.kind ["string", "any"] headerText
      (Java.primitive "string") := .primitive (by simp) headersPath
  have hmap : MapSpelled headersOwner.kind headerName headerText "Map<Object, String>" :=
    ⟨hkey, hvalue⟩
  have hended : ended.1 = .ok (.builtin "Map<Object, String>", none) := by
    rcases convert_map .defaults headersOwner [0, 0] .outer false none headersPath headerName
      headerText with
      ⟨spelling, hspelled, hconvert⟩ | ⟨hnone, -⟩
    · simp only [ended, hconvert, outcome_pure, hmap.unique hspelled]
    · exact absurd hmap (hnone _)
  refine ⟨hended, fun hiff => ?_⟩
  rcases (hiff.mp ⟨_, hended⟩).1 with ⟨path, hpath⟩
  exact nomatch hpath

end Resolving
end ApiBindings
