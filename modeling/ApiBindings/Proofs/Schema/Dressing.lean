import ApiBindings.Proofs.Schema.Documents
import ApiBindings.Proofs.Schema.Gathering
/-!
# Giving a node its name and its type

Restricting a node of a document puts its name and its type for the language in
place and then turns to what stands in it, one thing after the other.  The name is
a node made for it, and so is a type that is a text.  Any other type is the node
found below what is said about languages, which then stands in two places.
-/

namespace ApiBindings
namespace Availability

open Document

variable {language : Text} {limit node : Nat} {document document' : Document}
  {entries : List (Text × Nat)} {values : List (Text × Json)} {name : Option Text}
  {given : Option Json} {name? type? : Option Nat}

/-! ## The steps of restricting -/

theorem run_lift {α : Type} (step : Except Failure α) (progress : Progress) :
    (liftM step : Restricting α).run progress = step >>= fun a => pure (a, progress) :=
  rfl

theorem run_bind_of_ok {α β : Type} {first : Restricting α} {next : α → Restricting β}
    {before after : Progress} {a : α} (hfirst : first.run before = .ok (a, after)) :
    (first >>= next).run before = (next a).run after := by
  rw [StateT.run_bind, hfirst]
  rfl

theorem run_bind_of_error {α β : Type} {first : Restricting α} {next : α → Restricting β}
    {before : Progress} {failure : Failure} (hfirst : first.run before = .error failure) :
    (first >>= next).run before = .error failure := by
  rw [StateT.run_bind, hfirst]
  rfl

theorem run_entriesOf {entries : List (Text × Json)} (hvalue : document.value node = .obj entries)
    (dropped : Nat) :
    (entriesOf node).run ⟨document, dropped⟩ = pure (entries, ⟨document, dropped⟩) := by
  unfold entriesOf
  simp only [StateT.run_bind, StateT.run_get, pure_bind, hvalue]
  rfl

theorem run_applyAlias (hcell : document.cell node = .object entries)
    (hvalue : document.value node = .obj values) (dropped : Nat) :
    (applyAlias language node).run ⟨document, dropped⟩ = (do
      match ← alias? language values with
      | none => .ok ((), ⟨document, dropped⟩)
      | some name =>
        let named := document.push (.leaf (.str name))
        let cell := Cell.object (setChild "name" document.cells.size entries)
        .ok ((), ⟨named.put node cell, dropped⟩)) := by
  unfold applyAlias
  simp only [StateT.run_bind, run_entriesOf hvalue, StateT.run_get, run_lift, pure_bind,
    bind_assoc, hcell]
  refine bind_congr fun name => ?_
  cases name <;> rfl

theorem run_applyType (hcell : document.cell node = .object entries)
    (hvalue : document.value node = .obj values) (dropped : Nat) :
    (applyType language node).run ⟨document, dropped⟩ = (do
      match ← givenType? language values with
      | none => .ok ((), ⟨document, dropped⟩)
      | some (.str name) =>
        let named := document.push (.leaf (.str name))
        let typed := named.push (.object [("name", document.cells.size)])
        let cell := Cell.object (setChild "type" named.cells.size entries)
        .ok ((), ⟨typed.put node cell, dropped⟩)
      | some _ =>
        match document.follow? ["langs", "types", language] node with
        | some type =>
          .ok ((), ⟨document.put node (.object (setChild "type" type entries)), dropped⟩)
        | none => .ok ((), ⟨document, dropped⟩)) := by
  unfold applyType
  simp only [StateT.run_bind, run_entriesOf hvalue, StateT.run_get, run_lift, pure_bind,
    bind_assoc, hcell]
  refine bind_congr fun given => ?_
  have hpath : document.follow? ["langs", "types", language] node =
      ((document.child? "langs" node).bind (document.child? "types")).bind
        (document.child? language) := by
    simp [follow?, Option.bind_assoc]
  rw [hpath]
  cases given with
  | none => rfl
  | some given =>
      cases given with
      | str name => rfl
      | _ =>
          simp only [StateT.run_bind, StateT.run_get, pure_bind]
          cases ((document.child? "langs" node).bind (document.child? "types")).bind
            (document.child? language) <;> rfl

theorem run_keepNode (step : Nat → Restricting Unit) (node : Nat) (progress : Progress) :
    (keepNode language step node).run progress = (do
      if ← isAvailable language (progress.document.value node) then
        let ((), after) ← (step node).run progress
        .ok (true, after)
      else .ok (false, ⟨progress.document, progress.dropped + 1⟩)) := by
  unfold keepNode
  simp only [StateT.run_bind, StateT.run_get, pure_bind]
  cases isAvailable language (progress.document.value node) with
  | error failure => rfl
  | ok available => cases available <;> rfl

theorem run_keepNode_kept {step : Nat → Restricting Unit} {before after : Progress}
    (havailable : isAvailable language (before.document.value node) = .ok true)
    (hrun : (step node).run before = .ok ((), after)) :
    (keepNode language step node).run before = .ok (true, after) := by
  rw [run_keepNode, havailable]
  change (step node).run before >>= _ = _
  rw [hrun]
  rfl

theorem filterAuxM_eq {m : Type → Type} [Monad m] [LawfulMonad m] {α : Type} (keep : α → m Bool)
    (rest acc : List α) :
    List.filterAuxM keep rest acc = (do return (← rest.filterM keep).reverse ++ acc) := by
  unfold List.filterM
  simp only [bind_assoc, pure_bind, List.reverse_reverse]
  induction rest generalizing acc with
  | nil => simp [List.filterAuxM]
  | cons a rest ih =>
      simp only [List.filterAuxM, bind_assoc]
      refine bind_congr fun kept => ?_
      rw [ih, ih (cond kept [a] [])]
      cases kept <;> simp

theorem filterM_cons {m : Type → Type} [Monad m] [LawfulMonad m] {α : Type} (keep : α → m Bool)
    (a : α) (rest : List α) :
    (a :: rest).filterM keep = (do
      let here ← keep a
      let kept ← rest.filterM keep
      return if here then a :: kept else kept) := by
  conv_lhs => unfold List.filterM
  simp only [List.filterAuxM, bind_assoc]
  refine bind_congr fun here => ?_
  rw [filterAuxM_eq]
  cases here <;> simp

theorem filterM_append {m : Type → Type} [Monad m] [LawfulMonad m] {α : Type}
    (keep : α → m Bool) (first second : List α) :
    (first ++ second).filterM keep = (do
      let kept ← first.filterM keep
      let others ← second.filterM keep
      return kept ++ others) := by
  induction first with
  | nil => simp [List.filterM, List.filterAuxM]
  | cons a first ih =>
      rw [List.cons_append, filterM_cons, filterM_cons, ih]
      simp only [bind_assoc, pure_bind]
      refine bind_congr fun here => bind_congr fun kept => bind_congr fun others => ?_
      cases here <;> rfl

/-- Restrict what some entries or items stand for, and keep those that are for
the language. -/
def keepAll {α : Type} (language : Text) (step : Nat → Restricting Unit) (target : α → Nat)
    (things : List α) : Restricting (List α) :=
  things.filterM fun thing => keepNode language step (target thing)

theorem keepAll_cons {α : Type} (step : Nat → Restricting Unit) (target : α → Nat) (thing : α)
    (rest : List α) :
    keepAll language step target (thing :: rest) = (do
      let here ← keepNode language step (target thing)
      let kept ← keepAll language step target rest
      return if here then thing :: kept else kept) :=
  filterM_cons ..

theorem mem_of_mem_kept {α : Type} {here : Bool} {thing other : α} {kept : List α}
    (hother : other ∈ if here then thing :: kept else kept) :
    other ∈ kept ∨ here = true ∧ other = thing := by
  cases here <;> simp_all [or_comm]

theorem sublist_kept {α : Type} (here : Bool) (thing : α) {kept rest : List α}
    (hkept : kept.Sublist rest) :
    (if here then thing :: kept else kept).Sublist (thing :: rest) := by
  cases here
  · exact hkept.cons thing
  · exact hkept.cons_cons thing

theorem keepAll_append {α : Type} (step : Nat → Restricting Unit) (target : α → Nat)
    (first second : List α) :
    keepAll language step target (first ++ second) = (do
      let kept ← keepAll language step target first
      let others ← keepAll language step target second
      return kept ++ others) :=
  filterM_append ..

/-- Give a node its name and its type. -/
def dress (language : Text) (node : Nat) : Restricting Unit := do
  applyAlias language node
  applyType language node

theorem run_restrictNode_leaf {value : Json} (hcell : document.cell node = .leaf value)
    (depth dropped : Nat) :
    (restrictNode language depth node).run ⟨document, dropped⟩ = .ok ((), ⟨document, dropped⟩) := by
  cases depth with
  | zero => rfl
  | succ depth =>
      rw [restrictNode]
      simp only [StateT.run_bind, StateT.run_get, pure_bind, hcell]
      rfl

theorem run_restrictNode_list {items : List Nat} (hcell : document.cell node = .list items)
    (depth dropped : Nat) :
    (restrictNode language (depth + 1) node).run ⟨document, dropped⟩ = (do
      let (kept, after) ←
        (keepAll language (restrictNode language depth) id items).run ⟨document, dropped⟩
      .ok ((), ⟨after.document.put node (.list kept), after.dropped⟩)) := by
  rw [restrictNode]
  simp only [StateT.run_bind, StateT.run_get, pure_bind, hcell]
  rfl

theorem run_restrictNode_object (hcell : document.cell node = .object entries)
    (depth dropped : Nat) :
    (restrictNode language (depth + 1) node).run ⟨document, dropped⟩ = (do
      let ((), middle) ← (dress language node).run ⟨document, dropped⟩
      match middle.document.cell node with
      | .object entries =>
        let (kept, after) ←
          (keepAll language (restrictNode language depth) Prod.snd entries).run middle
        .ok ((), ⟨after.document.put node (.object kept), after.dropped⟩)
      | _ => .ok ((), middle)) := by
  rw [restrictNode]
  simp only [dress, StateT.run_bind, StateT.run_get, pure_bind, hcell, bind_assoc]
  refine bind_congr fun named => bind_congr fun middle => ?_
  cases middle.2.document.cell node with
  | object entries =>
      simp only [StateT.run_bind]
      rfl
  | _ => rfl

theorem run_restrictNode_dressed {entries entries' : List (Text × Nat)} {dropped : Nat}
    (hcell : document.cell node = .object entries)
    (hdress : (dress language node).run ⟨document, dropped⟩ = .ok ((), ⟨document', dropped⟩))
    (hcell' : document'.cell node = .object entries') (depth : Nat) :
    (restrictNode language (depth + 1) node).run ⟨document, dropped⟩ = (do
      let (kept, after) ←
        (keepAll language (restrictNode language depth) Prod.snd entries').run ⟨document', dropped⟩
      .ok ((), ⟨after.document.put node (.object kept), after.dropped⟩)) := by
  rw [run_restrictNode_object hcell, hdress]
  change (match document'.cell node with | .object entries => _ | _ => _) = _
  rw [hcell']

theorem run_restrictNode_failed {dropped : Nat} {failure : Failure}
    (hcell : document.cell node = .object entries)
    (hdress : (dress language node).run ⟨document, dropped⟩ = .error failure) (depth : Nat) :
    (restrictNode language (depth + 1) node).run ⟨document, dropped⟩ = .error failure := by
  rw [run_restrictNode_object hcell, hdress]
  rfl

/-! ## Putting the name and the type in place -/

/-- The entries of a node with a node put under a key, if there is one to put. -/
def withChild (key : Text) (child? : Option Nat) (entries : List (Text × Nat)) :
    List (Text × Nat) :=
  (child?.map fun child => setChild key child entries).getD entries

theorem map_setChild (value : Nat → Json) (key : Text) (child : Nat)
    (entries : List (Text × Nat)) :
    (setChild key child entries).map (fun entry => (entry.1, value entry.2)) =
      Json.setEntry key (value child) (entries.map fun entry => (entry.1, value entry.2)) := by
  induction entries with
  | nil => rfl
  | cons entry rest ih =>
      obtain ⟨k, c⟩ := entry
      rw [setChild, List.map_cons, Json.setEntry]
      split
      next => rfl
      next => rw [List.map_cons, ih]

theorem map_withChild (value : Nat → Json) (key : Text) (child? : Option Nat)
    (entries : List (Text × Nat)) :
    (withChild key child? entries).map (fun entry => (entry.1, value entry.2)) =
      ((child?.map value).map fun given =>
        Json.setEntry key given (entries.map fun entry => (entry.1, value entry.2))).getD
          (entries.map fun entry => (entry.1, value entry.2)) := by
  cases child? with
  | none => rfl
  | some child => exact map_setChild value key child entries

theorem mem_withChild {key : Text} {child? : Option Nat} {entry : Text × Nat}
    (hentry : entry ∈ withChild key child? entries) :
    entry ∈ entries ∨ entry.2 ∈ child? := by
  cases child? with
  | none => exact .inl hentry
  | some child =>
      have hentry : entry ∈ setChild key child entries := hentry
      induction entries with
      | nil =>
          obtain rfl : entry = (key, child) := by simpa [setChild] using hentry
          exact .inr rfl
      | cons first rest ih =>
          obtain ⟨k, c⟩ := first
          rw [setChild] at hentry
          split at hentry
          next =>
            rcases List.mem_cons.mp hentry with rfl | hrest
            · exact .inr rfl
            · exact .inl (List.mem_cons_of_mem _ hrest)
          next =>
            rcases List.mem_cons.mp hentry with rfl | hrest
            · exact .inl List.mem_cons_self
            · exact (ih hrest hrest).imp_left (List.mem_cons_of_mem _)

theorem mem_setChild (key : Text) (child : Nat) (entries : List (Text × Nat)) :
    (key, child) ∈ setChild key child entries := by
  induction entries with
  | nil => simp [setChild]
  | cons first rest ih =>
      obtain ⟨k, c⟩ := first
      rw [setChild]
      split
      next h => exact h ▸ List.mem_cons_self
      next => exact List.mem_cons_of_mem _ ih

theorem exists_setChild (key : Text) (child : Nat) (entries : List (Text × Nat)) :
    ∃ first second, setChild key child entries = first ++ (key, child) :: second ∧
      (first ++ second).Sublist entries := by
  induction entries with
  | nil => exact ⟨[], [], rfl, List.Sublist.refl _⟩
  | cons entry rest ih =>
      obtain ⟨k, c⟩ := entry
      rw [setChild]
      split
      next hkey => exact ⟨[], rest, by rw [hkey]; rfl, List.sublist_cons_self _ _⟩
      next =>
        obtain ⟨first, second, hsplit, hsub⟩ := ih
        exact ⟨(k, c) :: first, second, by rw [hsplit]; rfl, hsub.cons_cons _⟩

theorem mem_unique (hkeys : (entries.map Prod.fst).Nodup) {key : Text} {child other : Nat}
    (hchild : (key, child) ∈ entries) (hother : (key, other) ∈ entries) : child = other := by
  have hfound := Json.find?_of_mem hkeys hchild
  rw [Json.find?_of_mem hkeys hother] at hfound
  exact (Option.some.inj hfound).symm

theorem find?_withChild_of_ne {key other : Text} (hkey : other ≠ key) (child? : Option Nat)
    (entries : List (Text × Nat)) :
    Text.find? other (withChild key child? entries) = Text.find? other entries := by
  cases child? with
  | none => rfl
  | some child =>
      change Text.find? other (setChild key child entries) = _
      induction entries with
      | nil => simp [setChild, Text.find?_cons, hkey]
      | cons first rest ih =>
          obtain ⟨k, c⟩ := first
          rw [setChild]
          split
          next h => subst h; simp [Text.find?_cons, hkey]
          next => rw [Text.find?_cons, Text.find?_cons, ih]

/-- A node has got another node under a key, unless there was none to put. -/
structure Sets (limit node : Nat) (key : Text) (child? : Option Nat)
    (entries : List (Text × Nat)) (document document' : Document) : Prop where
  sound : Sound limit document'
  agree : Agree {node}ᶜ document document'
  cell : document'.cell node = .object (withChild key child? entries)

theorem Sets.none {key : Text} (hsound : Sound limit document)
    (hcell : document.cell node = .object entries) :
    Sets limit node key none entries document document where
  sound := hsound
  agree := ⟨Nat.le_refl _, fun _ _ _ => rfl⟩
  cell := hcell

theorem sets_put (key : Text) {child : Nat} (hsound : Sound limit document) (hnode : node < limit)
    (hcell : document.cell node = .object entries) (hchild : child < document.cells.size)
    (hunder : Under limit child node) :
    Sets limit node key (some child) entries document
      (document.put node (.object (setChild key child entries))) where
  sound := by
    refine hsound.put hnode (by simp) fun inner hinner => ?_
    obtain ⟨entry, hentry, rfl⟩ := List.mem_map.mp hinner
    have hentry : entry ∈ withChild key (some child) entries := hentry
    obtain hold | hnew := mem_withChild hentry
    · exact hsound.below node entry.2 (mem_children_of_mem hcell hold)
    · obtain rfl := Option.some.inj hnew
      exact ⟨hchild, hunder⟩
  agree := agree_put document node _
  cell := cell_put_self (Nat.lt_of_lt_of_le hnode hsound.bound)

theorem run_applyAlias_ok (hsound : Sound limit document) (hnode : node < limit)
    (hcell : document.cell node = .object entries) (hvalue : document.value node = .obj values)
    (hname : alias? language values = .ok name) (dropped : Nat) :
    ∃ document' child?, (applyAlias language node).run ⟨document, dropped⟩ =
        .ok ((), ⟨document', dropped⟩) ∧
      Sets limit node "name" child? entries document document' ∧
      child?.map document'.value = name.map .str ∧ ∀ child ∈ child?, limit ≤ child := by
  rw [run_applyAlias hcell hvalue, hname]
  cases name with
  | none => exact ⟨document, none, rfl, .none hsound hcell, rfl, by simp⟩
  | some text =>
      have hbound := hsound.bound
      have hnew := hsound.push_leaf text
      have hold : (document.push (.leaf (.str text))).cell node = .object entries := by
        rw [cell_push_of_lt (by omega), hcell]
      have hunder : Under limit document.cells.size node := under_of_made hnode hbound
      have hsets := sets_put "name" hnew hnode hold (by simp) hunder
      refine ⟨_, some document.cells.size, rfl, ⟨hsets.sound, ?_, hsets.cell⟩, ?_, ?_⟩
      · exact ((agree_push document _).mono (Set.subset_univ _)).trans hsets.agree
      · have hleaf : (document.push (.leaf (.str text))).cell document.cells.size =
            .leaf (.str text) := by simp [cell_push]
        rw [Option.map_some, hsets.sound.value_leaf]
        · rfl
        · rw [cell_put_of_ne hunder.ne, hleaf]
      · simpa using hbound

/-- The type that a node is given stands below what it says about languages. -/
theorem exists_follow?_of_givenType? {given : Json} (hsound : Sound limit document)
    (hvalue : document.value node = .obj values)
    (hgiven : givenType? language values = .ok (some given)) :
    ∃ type, document.follow? ["langs", "types", language] node = some type ∧
      document.value type = given := by
  obtain ⟨types, htypes, hfound⟩ := givenType?_some hgiven
  obtain ⟨langs, hlangs, htypes⟩ := declared?_eq_some.mp htypes
  obtain ⟨langsNode, hlangsNode, hlangs⟩ := hsound.exists_child? hvalue hlangs
  obtain ⟨typesNode, htypesNode, htypes⟩ := hsound.exists_child? hlangs htypes
  obtain ⟨type, htype, hgiven⟩ := hsound.exists_child? htypes hfound
  exact ⟨type, by simp [follow?, hlangsNode, htypesNode, htype], hgiven⟩

theorem Sets.value {key : Text} {child? : Option Nat}
    (hsets : Sets limit node key child? entries document document')
    (hsound : Sound limit document) {child : Nat} (hchild : child < document.cells.size)
    (hunder : Under limit child node) : document'.value child = document.value child :=
  (hsound.within_compl hchild hunder).value_agree hsound hsets.sound hsets.agree

theorem Sets.child?_of_ne {key other : Text} {child? : Option Nat}
    (hsets : Sets limit node key child? entries document document')
    (hcell : document.cell node = .object entries) (hkey : other ≠ key) :
    document'.child? other node = document.child? other node := by
  unfold Document.child?
  rw [hsets.cell, hcell]
  exact find?_withChild_of_ne hkey child? entries

theorem Sets.follow?_of_ne {key other : Text} {child? : Option Nat}
    (hsets : Sets limit node key child? entries document document')
    (hsound : Sound limit document) (hcell : document.cell node = .object entries)
    (hkey : other ≠ key) (keys : List Text) :
    document'.follow? (other :: keys) node = document.follow? (other :: keys) node := by
  unfold follow?
  rw [hsets.child?_of_ne hcell hkey]
  cases hchild : document.child? other node with
  | none => rfl
  | some child =>
      have havoid := hsound.within_child (mem_children_of_child? hchild)
      exact havoid.follow?_agree hsets.agree keys

/-- A type that is a text is put in place as a node made for it. -/
theorem sets_typeNamed (hsound : Sound limit document) (hnode : node < limit)
    (hcell : document.cell node = .object entries) (text : Text) :
    let named := document.push (.leaf (.str text))
    let typed := named.push (.object [("name", document.cells.size)])
    let document' := typed.put node (.object (setChild "type" named.cells.size entries))
    Sets limit node "type" (some named.cells.size) entries document document' ∧
      document'.value named.cells.size = typeFor (.str text) := by
  intro named typed document'
  have hbound := hsound.bound
  have hsize : document.cells.size < named.cells.size := by simp [named]
  have hleaf : named.cell document.cells.size = .leaf (.str text) := by simp [named, cell_push]
  have hnamed : Sound limit named := hsound.push_leaf text
  have hnew : Sound limit typed := hnamed.push_nameOnly hbound hsize hleaf
  have hold : typed.cell node = .object entries := by
    rw [cell_push_of_lt (by omega), cell_push_of_lt (by omega), hcell]
  have hname : Under limit document.cells.size node := under_of_made hnode hbound
  have htype : Under limit named.cells.size node := under_of_made hnode (by omega)
  have hsets := sets_put "type" hnew hnode hold (by simp [typed]) htype
  have hagree : Agree Set.univ document typed :=
    (agree_push document _).trans (agree_push named _)
  refine ⟨⟨hsets.sound, (hagree.mono (Set.subset_univ _)).trans hsets.agree, hsets.cell⟩, ?_⟩
  have hnameCell : document'.cell document.cells.size = .leaf (.str text) := by
    rw [cell_put_of_ne hname.ne, cell_push_of_lt hsize, hleaf]
  have htypeCell : document'.cell named.cells.size =
      .object [("name", document.cells.size)] := by
    rw [cell_put_of_ne htype.ne, cell_push, if_pos rfl]
  rw [hsets.sound.value_object htypeCell, List.map_singleton, hsets.sound.value_leaf hnameCell]
  rfl

theorem run_applyType_ok (hsound : Sound limit document) (hnode : node < limit)
    (hcell : document.cell node = .object entries) (hvalue : document.value node = .obj values)
    (hgiven : givenType? language values = .ok given) (dropped : Nat) :
    ∃ document' child?, (applyType language node).run ⟨document, dropped⟩ =
        .ok ((), ⟨document', dropped⟩) ∧
      Sets limit node "type" child? entries document document' ∧
      child?.map document'.value = given.map typeFor ∧
      ∀ child ∈ child?, (limit ≤ child ∧ ∃ text, given = some (.str text)) ∨
        ((∀ text, given ≠ some (.str text)) ∧
          document.follow? ["langs", "types", language] node = some child) := by
  rw [run_applyType hcell hvalue, hgiven]
  cases given with
  | none => exact ⟨document, none, rfl, .none hsound hcell, rfl, by simp⟩
  | some given =>
      cases given with
      | str text =>
          obtain ⟨hsets, htype⟩ := sets_typeNamed hsound hnode hcell text
          refine ⟨_, some _, rfl, hsets, congrArg some htype, ?_⟩
          simp only [Option.mem_def, Option.some.injEq, forall_eq']
          have hbound := hsound.bound
          exact .inl ⟨by simp only [size_push]; omega, text, rfl⟩
      | _ =>
          obtain ⟨type, htype, hgiven⟩ := exists_follow?_of_givenType? hsound hvalue hgiven
          have hunder : Under limit type node := hsound.under_of_follow?_cons htype
          have hsize : type < document.cells.size :=
            ((hsound.within_univ (Nat.lt_of_lt_of_le hnode hsound.bound)).follow? htype).lt_size
          have hsets := sets_put "type" hsound hnode hcell hsize hunder
          refine ⟨_, some type, by simp only [htype]; rfl, hsets, ?_, ?_⟩
          · rw [Option.map_some, hsets.value hsound hsize hunder, hgiven]
            rfl
          · simp only [Option.mem_def, Option.some.injEq, forall_eq']
            exact .inr ⟨by simp, htype⟩

/-- A node has got the name and the type that it is given: nodes made for it, or
for a type that is no text, the node below what it says about languages. -/
structure Dressed (language : Text) (limit node : Nat) (name : Option Text) (given : Option Json)
    (entries : List (Text × Nat)) (name? type? : Option Nat)
    (document document' : Document) : Prop where
  sound : Sound limit document'
  agree : Agree {node}ᶜ document document'
  cell : document'.cell node = .object (withChild "type" type? (withChild "name" name? entries))
  named : name?.map document'.value = name.map .str
  typed : type?.map document'.value = given.map typeFor
  madeName : ∀ child ∈ name?, limit ≤ child ∧ child < document'.cells.size
  foundType : ∀ child ∈ type?, (limit ≤ child ∧ ∃ text, given = some (.str text)) ∨
    ((∀ text, given ≠ some (.str text)) ∧
      document.follow? ["langs", "types", language] node = some child)

theorem Sets.value_object {key : Text} {child? : Option Nat}
    (hsets : Sets limit node key child? entries document document')
    (hsound : Sound limit document) (hcell : document.cell node = .object entries) :
    document'.value node = .obj (((child?.map document'.value).map fun given =>
      Json.setEntry key given (entries.map fun entry => (entry.1, document.value entry.2))).getD
        (entries.map fun entry => (entry.1, document.value entry.2))) := by
  have hsame : entries.map (fun entry => (entry.1, document'.value entry.2)) =
      entries.map fun entry => (entry.1, document.value entry.2) := by
    refine List.map_congr_left fun entry hentry => ?_
    have hbelow := hsound.below node entry.2 (mem_children_of_mem hcell hentry)
    rw [hsets.value hsound hbelow.1 hbelow.2]
  rw [hsets.sound.value_object hsets.cell, map_withChild, hsame]

theorem run_applyAlias_renamed (hsound : Sound limit document) (hnode : node < limit)
    (hcell : document.cell node = .object entries) (hvalue : document.value node = .obj values)
    (hname : alias? language values = .ok name) (dropped : Nat) :
    ∃ document' child?, (applyAlias language node).run ⟨document, dropped⟩ =
        .ok ((), ⟨document', dropped⟩) ∧
      Sets limit node "name" child? entries document document' ∧
      child?.map document'.value = name.map .str ∧ (∀ child ∈ child?, limit ≤ child) ∧
      document'.value node = .obj (renamed name values) := by
  obtain ⟨document', child?, hrun, hsets, hnamed, hmade⟩ :=
    run_applyAlias_ok hsound hnode hcell hvalue hname dropped
  refine ⟨document', child?, hrun, hsets, hnamed, hmade, ?_⟩
  rw [hsound.value_object hcell] at hvalue
  rw [hsets.value_object hsound hcell, hnamed, ← Json.obj.inj hvalue]
  cases name <;> rfl

theorem run_dress_aliasError {failure : Failure} (hcell : document.cell node = .object entries)
    (hvalue : document.value node = .obj values) (hname : alias? language values = .error failure)
    (dropped : Nat) : (dress language node).run ⟨document, dropped⟩ = .error failure := by
  rw [dress, StateT.run_bind, run_applyAlias hcell hvalue, hname]
  rfl

theorem run_dress_typeError {failure : Failure} (hsound : Sound limit document)
    (hnode : node < limit) (hcell : document.cell node = .object entries)
    (hvalue : document.value node = .obj values) (hname : alias? language values = .ok name)
    (hgiven : givenType? language (renamed name values) = .error failure) (dropped : Nat) :
    (dress language node).run ⟨document, dropped⟩ = .error failure := by
  obtain ⟨document', child?, hrun, hsets, -, -, hrenamed⟩ :=
    run_applyAlias_renamed hsound hnode hcell hvalue hname dropped
  rw [dress, StateT.run_bind, hrun]
  exact (run_applyType hsets.cell hrenamed dropped).trans (by rw [hgiven]; rfl)

theorem run_dress (hsound : Sound limit document) (hnode : node < limit)
    (hcell : document.cell node = .object entries) (hvalue : document.value node = .obj values)
    (hname : alias? language values = .ok name)
    (hgiven : givenType? language (renamed name values) = .ok given) (dropped : Nat) :
    ∃ document' name? type?, (dress language node).run ⟨document, dropped⟩ =
        .ok ((), ⟨document', dropped⟩) ∧
      Dressed language limit node name given entries name? type? document document' ∧
      document'.value node = .obj (applied name given values) := by
  obtain ⟨middle, name?, hrun, hsets, hnamed, hmade, hrenamed⟩ :=
    run_applyAlias_renamed hsound hnode hcell hvalue hname dropped
  obtain ⟨document', type?, hrun', hsets', htyped, hfound⟩ :=
    run_applyType_ok hsets.sound hnode hsets.cell hrenamed hgiven dropped
  have hsize : node < middle.cells.size := Nat.lt_of_lt_of_le hnode hsets.sound.bound
  have hplace : ∀ child ∈ name?, child < middle.cells.size ∧ Under limit child node := by
    rintro child ⟨⟩
    exact hsets.sound.below node child
      (mem_children_of_mem hsets.cell (mem_setChild "name" child entries))
  refine ⟨document', name?, type?, ?_, ⟨hsets'.sound, hsets.agree.trans hsets'.agree, hsets'.cell,
    ?_, htyped, fun child hchild => ⟨hmade child hchild, ?_⟩, ?_⟩, ?_⟩
  · rw [dress, StateT.run_bind, hrun]
    exact hrun'
  · rw [← hnamed]
    cases name? with
    | none => rfl
    | some child =>
        obtain ⟨hsize, hunder⟩ := hplace child rfl
        rw [Option.map_some, Option.map_some, hsets'.value hsets.sound hsize hunder]
  · exact Nat.lt_of_lt_of_le (hplace child hchild).1 hsets'.agree.1
  · intro child hchild
    refine (hfound child hchild).imp_right fun ⟨htext, hpath⟩ => ⟨htext, ?_⟩
    rw [← hpath, hsets.follow?_of_ne hsound hcell (by decide)]
  · rw [hsets'.value_object hsets.sound hsets.cell, htyped]
    rw [hsets.sound.value_object hsets.cell] at hrenamed
    rw [Json.obj.inj hrenamed]
    unfold applied
    cases given <;> rfl

/-- What stands in a node that got its name and its type stood there before, was
made later, or is the type found below what the node says about languages. -/
theorem Dressed.child_cases
    (hdressed : Dressed language limit node name given entries name? type? document document')
    (hcell : document.cell node = .object entries) {child : Nat}
    (hchild : child ∈ (document'.cell node).children) :
    child ∈ (document.cell node).children ∨ limit ≤ child ∨
      document.follow? ["langs", "types", language] node = some child := by
  rw [hdressed.cell] at hchild
  obtain ⟨entry, hentry, rfl⟩ := List.mem_map.mp hchild
  obtain hentry | htype := mem_withChild hentry
  · obtain hold | hname := mem_withChild hentry
    · exact .inl (mem_children_of_mem hcell hold)
    · exact .inr (.inl (hdressed.madeName entry.2 hname).1)
  · obtain ⟨hmade, -⟩ | ⟨-, hpath⟩ := hdressed.foundType entry.2 htype
    · exact .inr (.inl hmade)
    · exact .inr (.inr hpath)

theorem Dressed.within {region : Set Nat}
    (hdressed : Dressed language limit node name given entries name? type? document document')
    (hsound : Sound limit document) (hcell : document.cell node = .object entries)
    (hregion : Set.Ici limit ⊆ region) (hwithin : document.Within region node) :
    document'.Within region node := by
  refine .intro (Nat.lt_of_lt_of_le hwithin.lt_size hdressed.agree.1) hwithin.mem
    fun child hchild => ?_
  have hsize := (hdressed.sound.below node child hchild).1
  obtain hold | hmade | hpath := hdressed.child_cases hcell hchild
  · exact (hsound.within_child hold).agree (hwithin.child hold) hdressed.agree
  · exact (hdressed.sound.within_made hmade hsize).mono hregion
  · have hreached := hwithin.follow? hpath
    have havoid := hsound.within_compl hreached.lt_size (hsound.under_of_follow?_cons hpath)
    exact havoid.agree hreached hdressed.agree

end Availability
end ApiBindings
