import ApiBindings.Proofs.Schema.Sharing
/-!
# Restricting a node with all that stands in it

Where a step restricts the nodes up to some number as their values are restricted,
the next depth does so for one more node: for a list, for a node with a type of its
own, and for one whose type is shared.  So every depth restricts as many nodes as
their values are restricted.
-/

namespace ApiBindings
namespace Availability

open Document

variable {language : Text} {limit bound node : Nat} {document document' : Document}
  {part : Nat → Set Nat} {region : Set Nat} {step : Nat → Restricting Unit}

/-! ## Putting what is left in place -/

/-- A node is left as what is put in its place in the end, where all that stands in
it rests. -/
theorem visited_of_put {middle : Document} {cell : Cell} {left : Json} {count : Nat}
    (hsound : Sound limit document) (hparts : Parts language limit document region node part)
    (hunsettled : ¬ Settled language (document.value node))
    (hleads : Leads language limit region document middle) (hcell : ∀ value, cell ≠ .leaf value)
    (hbelow : ∀ child ∈ cell.children, Under limit child node)
    (hrests : ∀ child ∈ cell.children, middle.Within (region ∩ {node}ᶜ) child)
    (hvalue : cell.valueWith middle.value = left) (hsettled : Settled language left)
    (hrun : restrictAt language [] (document.value node) = .ok (left, count))
    (htracks : ∀ key child, Ordinary key → document.child? key node = some child →
      Tracks language limit (region ∩ {node}ᶜ)
        (isAvailable language (document.value child) = .ok true) document middle child) :
    Visited language limit region node document (middle.put node cell) left := by
  have hnode := hparts.start
  have hsound' : Sound limit (middle.put node cell) := hleads.sound.put hnode hcell
    fun child hchild => ⟨(hrests child hchild).lt_size, hbelow child hchild⟩
  have hput := agree_put middle node cell
  have hinside : Agree (region ∩ {node}ᶜ) middle (middle.put node cell) :=
    hput.mono Set.inter_subset_right
  have hsize : node < middle.cells.size := Nat.lt_of_lt_of_le hnode hleads.sound.bound
  have hkept : (middle.put node cell).cell node = cell := cell_put_self hsize
  have hleft : (middle.put node cell).value node = left := by
    rw [hsound'.value_eq, hkept, ← hvalue]
    exact Cell.valueWith_congr fun child hchild =>
      (hrests child hchild).value_agree hleads.sound hsound' hinside
  have hwithin : (middle.put node cell).Within region node := by
    refine .intro (by simpa using hsize) hparts.mem fun child hchild => ?_
    rw [hkept] at hchild
    have hrest := hrests child hchild
    exact (hrest.agree hrest hinside).mono Set.inter_subset_left
  refine ⟨hleads.change hsound hsound' hput hnode hparts.mem hunsettled, hleft, hwithin, ?_⟩
  intro keys hkeys last hlast
  cases keys with
  | nil =>
      obtain rfl := Option.some.inj hlast
      refine ⟨.rest hparts.made (hleft ▸ hsettled) hwithin, fun _ => ⟨count, by rw [hleft, hrun]⟩,
        fun hopens => absurd ⟨trivial, trivial⟩ hopens⟩
  | cons key keys =>
      obtain ⟨child, hchild, hrest⟩ := follow?_cons.mp hlast
      obtain ⟨hkey, hkeys⟩ := List.forall_mem_cons.mp hkeys
      have hafter := (htracks key child hkey hchild).after hleads.sound hsound' hinside
      rw [opens_cons hchild, true_and]
      exact (hafter.mono Set.inter_subset_left) keys hkeys last hrest

theorem deep_of_under {child : Nat} (hunder : Under limit child node) (hnode : node < limit)
    (hdeep : node < bound + 1) : child < bound ∨ limit ≤ child := by
  unfold Under at hunder
  rw [if_pos hnode] at hunder
  omega

theorem mirrors_list {items : List Nat} (hword : isEntryWord language = false)
    (hstep : Restricts language limit bound (restrictNode language bound))
    (hsound : Sound limit document) (hcell : document.cell node = .list items)
    (hparts : Parts language limit document region node part)
    (hproper : (document.value node).Proper) (hdeep : node < bound + 1)
    (hunsettled : ¬ Settled language (document.value node)) (dropped : Nat) :
    Mirrors document dropped (restrictNode language (bound + 1) node)
      (restrictAt language [] (document.value node))
      fun document' _ left => Visited language limit region node document document' left := by
  have hitems : (document.cell node).children = items := by
    rw [hcell]
    rfl
  have hspread : Spread language limit bound part id document items := by
    have hapart := hparts.apart
    have hlaid := hparts.laid
    rw [hitems] at hapart hlaid
    refine ⟨hlaid, fun child hchild => ?_, fun child hchild => ?_, hapart⟩
    · exact proper_child hsound hproper (hitems ▸ hchild)
    · exact deep_of_under (hsound.below node child (hitems ▸ hchild)).2 hparts.start hdeep
  let place : Nat → Json → Json := fun _ => id
  have houtcome : restrictAt language [] (document.value node) =
      (gather (plainOutcomes language place id document items)).map (Prod.map Json.arr id) := by
    rw [hsound.value_list hcell, restrictAt_items, List.map_map]
    rfl
  have hall := mirrors_keepAll hword hstep place hspread hsound dropped
  rw [houtcome]
  refine hall.put Cell.list (run_restrictNode_list hcell _ _)
    fun after kept left count hgather hboth => ?_
  obtain ⟨hgathered, hleft⟩ := hboth
  have hrun : restrictAt language [] (document.value node) = .ok (.arr left, count) := by
    rw [houtcome, hgather]
    rfl
  have hkept : ∀ child ∈ kept, child ∈ (document.cell node).children := fun child hchild =>
    hitems ▸ hgathered.sublist.subset hchild
  have hleads : Leads language limit region document after :=
    hgathered.leads region fun child hchild =>
      (hparts.inside child (hitems ▸ hchild)).trans Set.inter_subset_left
  refine visited_of_put hsound hparts hunsettled hleads (by simp)
    (fun child hchild => (hsound.below node child (hkept child hchild)).2) (fun child hchild => ?_)
    ?_ (settled_restrictAt hword hproper hrun).1 hrun fun key child _ hchild => ?_
  · exact (hgathered.rests child hchild).2.mono (hparts.inside child (hkept child hchild))
  · rw [hleft]
    rfl
  · obtain ⟨entries, hobject, -⟩ := child?_eq_some.mp hchild
    rw [hcell] at hobject
    cases hobject

/-! ## The entries of a node that got its name and its type -/

/-- The part of a node in a laid out one; a node made for it has none of its own. -/
def partOf (limit : Nat) (part : Nat → Set Nat) (child : Nat) : Set Nat :=
  {other | limit ≤ other ∨ (child < limit ∧ other ∈ part child)}

theorem partOf_subset_of_made {child : Nat} (hchild : limit ≤ child) :
    partOf limit part child ⊆ Set.Ici limit := by
  rintro other (hmade | ⟨hstart, -⟩)
  · exact hmade
  · omega

theorem apart_partOf_made {child other : Nat} (hchild : limit ≤ child) :
    Apart limit (partOf limit part child) (partOf limit part other) :=
  Set.inter_subset_left.trans (partOf_subset_of_made hchild)

theorem Apart.partOf {child other : Nat} (hapart : Apart limit (part child) (part other)) :
    Apart limit (partOf limit part child) (partOf limit part other) := by
  rintro inner ⟨hmade | ⟨-, hchild⟩, hmade' | ⟨-, hother⟩⟩
  · exact hmade
  · exact hmade
  · exact hmade'
  · exact hapart ⟨hchild, hother⟩

/-- A node that was made later fits in among spread entries. -/
theorem SpreadEntries.withMade {key : Text} {child? : Option Nat} {entries : List (Text × Nat)}
    (hspread : SpreadEntries language limit bound (partOf limit part) document entries)
    (hsound : Sound limit document)
    (hmade : ∀ child ∈ child?, limit ≤ child ∧ child < document.cells.size) :
    SpreadEntries language limit bound (partOf limit part) document
      (withChild key child? entries) := by
  cases child? with
  | none => exact hspread
  | some child =>
      obtain ⟨hlimit, hsize⟩ := hmade child rfl
      obtain ⟨first, second, hsplit, hsub⟩ := exists_setChild key child entries
      have hrest : SpreadEntries language limit bound (partOf limit part) document
        (first ++ second) := hspread.sublist hsub
      have hlaid : Laid language limit document (partOf limit part child) child :=
        (laid_made hsound hlimit hsize).mono fun _ => .inl
      change SpreadEntries language limit bound _ document (setChild key child entries)
      rw [hsplit]
      refine ⟨fun entry hentry => ?_, fun entry hentry => ?_, fun entry hentry => ?_,
        pairwise_apart_middle.mpr ⟨fun _ _ => apart_partOf_made hlimit, hrest.apart⟩⟩ <;>
        rcases List.mem_cons.mp (List.perm_middle.mem_iff.mp hentry) with rfl | hother
      · exact hlaid
      · exact hrest.laid entry hother
      · exact proper_made hsound hlimit
      · exact hrest.proper entry hother
      · exact .inr hlimit
      · exact hrest.deep entry hother

theorem Parts.partOf_subset (hparts : Parts language limit document region node part)
    {child : Nat} (hchild : child ∈ (document.cell node).children ∨ limit ≤ child) :
    partOf limit part child ⊆ region ∩ {node}ᶜ := by
  rintro other (hmade | ⟨hstart, hother⟩)
  · exact ⟨hparts.made hmade, ici_subset_compl hparts.start hmade⟩
  · obtain hchild | hlimit := hchild
    · exact hparts.inside child hchild hother
    · omega

theorem Parts.spread {entries : List (Text × Nat)}
    (hparts : Parts language limit document region node part) (hsound : Sound limit document)
    (hcell : document.cell node = .object entries) (hproper : (document.value node).Proper)
    (hdeep : node < bound + 1) :
    SpreadEntries language limit bound (partOf limit part) document entries := by
  have hmem : ∀ entry ∈ entries, entry.2 ∈ (document.cell node).children := fun entry hentry =>
    mem_children_of_mem hcell hentry
  refine ⟨fun entry hentry => ?_, fun entry hentry => ?_, fun entry hentry => ?_, ?_⟩
  · by_cases hlimit : limit ≤ entry.2
    · have hsize := (hsound.below node _ (hmem entry hentry)).1
      exact (laid_made hsound hlimit hsize).mono fun _ => .inl
    · exact (hparts.laid _ (hmem entry hentry)).mono fun other hother =>
        .inr ⟨Nat.lt_of_not_le hlimit, hother⟩
  · exact proper_child hsound hproper (hmem entry hentry)
  · exact deep_of_under (hsound.below node _ (hmem entry hentry)).2 hparts.start hdeep
  · exact (hparts.apart_entries hcell).imp Apart.partOf

/-- The entries of a node are spread also when it has got its name. -/
theorem Parts.spread_named {entries : List (Text × Nat)} {name : Option Text}
    {given : Option Json} {name? type? : Option Nat}
    (hparts : Parts language limit document region node part) (hsound : Sound limit document)
    (hcell : document.cell node = .object entries) (hproper : (document.value node).Proper)
    (hdeep : node < bound + 1)
    (hdressed : Dressed language limit node name given entries name? type? document document') :
    SpreadEntries language limit bound (partOf limit part) document'
        (withChild "name" name? entries) ∧
      ∀ entry ∈ withChild "name" name? entries, partOf limit part entry.2 ⊆ region ∩ {node}ᶜ := by
  have hspread := hparts.spread hsound hcell hproper hdeep
  have hkept : SpreadEntries language limit bound (partOf limit part) document' entries := by
    refine hspread.agree hsound hdressed.sound fun entry hentry => hdressed.agree.mono ?_
    exact (hparts.partOf_subset (.inl (mem_children_of_mem hcell hentry))).trans
      Set.inter_subset_right
  refine ⟨hkept.withMade hdressed.sound hdressed.madeName, fun entry hentry => ?_⟩
  rcases mem_withChild hentry with hold | hname
  · exact hparts.partOf_subset (.inl (mem_children_of_mem hcell hold))
  · exact hparts.partOf_subset (.inr (hdressed.madeName entry.2 hname).1)

theorem Gathered.weaken {α : Type} {part : α → Set Nat} {target : α → Nat}
    {tracked tracked' : α → Prop} {things kept : List α}
    (hgathered : Gathered language limit part target tracked document document' things kept)
    (hregion : ∀ thing ∈ things, part thing ⊆ region)
    (htracked : ∀ thing, tracked' thing → tracked thing) :
    Gathered language limit (fun _ => region) target tracked' document document' things kept where
  leads region' hregion' := hgathered.leads region' fun thing hthing =>
    (hregion thing hthing).trans (hregion' thing hthing)
  sublist := hgathered.sublist
  rests thing hthing := by
    obtain ⟨hsettled, hwithin⟩ := hgathered.rests thing hthing
    exact ⟨hsettled, hwithin.mono (hregion thing (hgathered.sublist.subset hthing))⟩
  tracks thing hthing hkey :=
    (hgathered.tracks thing hthing (htracked thing hkey)).mono (hregion thing hthing)

theorem outcomes_eq_entryOutcomes {type : Option Outcome} {entries : List (Text × Nat)}
    (htype : ∀ entry ∈ entries, entryOutcome language none type entry.1 (document.value entry.2) =
      plainOutcome language (document.value entry.2)) :
    outcomes language none type (entries.map fun entry => (entry.1, document.value entry.2)) =
      entryOutcomes language document entries := by
  unfold outcomes entryOutcomes plainOutcomes
  rw [List.map_map]
  exact List.map_congr_left fun entry hentry => congrArg (Prod.mk _) (htype entry hentry)

theorem outcomes_type {first second : List (Text × Nat)} {child : Nat} (type : Outcome)
    (hkeys : ((first ++ (("type" : Text), child) :: second).map Prod.fst).Nodup) :
    outcomes language none (some type)
        ((first ++ (("type" : Text), child) :: second).map
          fun entry => (entry.1, document.value entry.2)) =
      entryOutcomes language document first ++ (Prod.mk ("type" : Text), type) ::
        entryOutcomes language document second := by
  have hplain : ∀ entry ∈ first ++ second,
      entryOutcome language none (some type) entry.1 (document.value entry.2) =
        plainOutcome language (document.value entry.2) := by
    intro entry hentry
    have hne : entry.1 ≠ "type" := by
      intro heq
      rw [List.map_append, List.map_cons, List.perm_middle.nodup_iff, ← List.map_append,
        List.nodup_cons] at hkeys
      have hmem : entry.1 ∈ (first ++ second).map Prod.fst := List.mem_map_of_mem hentry
      rw [heq] at hmem
      exact hkeys.1 hmem
    simp [entryOutcome, hne]
  have hown : entryOutcome language none (some type) "type" (document.value child) = type := by
    have hname : ("type" : Text) ≠ "name" := by decide
    simp [entryOutcome, hname]
  have hfirst := outcomes_eq_entryOutcomes fun entry hentry =>
    hplain entry (List.mem_append_left second hentry)
  have hsecond := outcomes_eq_entryOutcomes fun entry hentry =>
    hplain entry (List.mem_append_right first hentry)
  rw [List.map_append, List.map_cons, outcomes_append, hfirst, ← hsecond, outcomes, List.map_cons,
    hown]
  rfl

/-- Entries of which none is shared are restricted as their values are. -/
theorem mirrors_unshared {entries : List (Text × Nat)} {type : Option Outcome}
    (hword : isEntryWord language = false) (hstep : Restricts language limit bound step)
    (hsound : Sound limit document)
    (hspread : SpreadEntries language limit bound part document entries)
    (hregion : ∀ entry ∈ entries, part entry.2 ⊆ region)
    (htype : ∀ entry ∈ entries, entryOutcome language none type entry.1 (document.value entry.2) =
      plainOutcome language (document.value entry.2)) (dropped : Nat) :
    Mirrors document dropped (keepAll language step Prod.snd entries)
      (gather (outcomes language none type
        (entries.map fun entry => (entry.1, document.value entry.2))))
      (Leaves language limit region document entries) := by
  rw [outcomes_eq_entryOutcomes htype]
  have hall := mirrors_keepAll hword hstep (fun entry : Text × Nat => Prod.mk entry.1) hspread
    hsound dropped
  exact hall.imp fun after kept left hboth =>
    ⟨hboth.1.weaken hregion fun _ _ => trivial, hboth.2⟩

/-- A type that is a text adds a node of its own, of which nothing can be dropped. -/
theorem mirrors_typeMade {entries : List (Text × Nat)} {values : List (Text × Json)} {type : Nat}
    {text : Text} (hword : isEntryWord language = false)
    (hstep : Restricts language limit bound step) (hsound : Sound limit document)
    (hici : Set.Ici limit ⊆ region)
    (hspread : SpreadEntries language limit bound (partOf limit part) document entries)
    (hregion : ∀ entry ∈ entries, partOf limit part entry.2 ⊆ region)
    (hkeys : ((setChild "type" type entries).map Prod.fst).Nodup)
    (hmade : limit ≤ type) (hsize : type < document.cells.size)
    (hvalue : document.value type = typeFor (.str text)) (dropped : Nat) :
    Mirrors document dropped (keepAll language step Prod.snd (setChild "type" type entries))
      (gather (outcomes language none (some (givenOutcome language values (.str text)))
        ((setChild "type" type entries).map fun entry => (entry.1, document.value entry.2))))
      (Leaves language limit region document (setChild "type" type entries)) := by
  have hspread' : SpreadEntries language limit bound (partOf limit part) document
      (withChild "type" (some type) entries) := by
    refine hspread.withMade hsound fun child hchild => ?_
    obtain rfl := Option.some.inj hchild
    exact ⟨hmade, hsize⟩
  have hregion' : ∀ entry ∈ withChild "type" (some type) entries,
      partOf limit part entry.2 ⊆ region := by
    intro entry hentry
    rcases mem_withChild hentry with hold | htype
    · exact hregion entry hold
    · obtain rfl := Option.some.inj htype
      exact (partOf_subset_of_made hmade).trans hici
  refine mirrors_unshared hword hstep hsound hspread' hregion' (fun entry hentry => ?_) dropped
  obtain ⟨key, child⟩ := entry
  by_cases hkey : key = "type"
  · subst hkey
    obtain rfl := mem_unique hkeys hentry (mem_setChild "type" type entries)
    have hname : ("type" : Text) ≠ "name" := by decide
    rw [hvalue]
    simp only [entryOutcome, hname, reduceIte]
    rfl
  · simp [entryOutcome, hkey]

/-- Entries are restricted as their values are also where the type is the node found
below what is said about languages. -/
theorem mirrors_shared {entries : List (Text × Nat)} {values : List (Text × Json)}
    {langs type : Nat} (hword : isEntryWord language = false)
    (hstep : Restricts language limit bound step) (hsound : Sound limit document)
    (hici : Set.Ici limit ⊆ region)
    (hspread : SpreadEntries language limit bound part document entries)
    (hregion : ∀ entry ∈ entries, part entry.2 ⊆ region)
    (hkeys : ((setChild "type" type entries).map Prod.fst).Nodup)
    (hlangs : Text.find? "langs" entries = some langs)
    (hvalue : Text.find? "langs" values = some (document.value langs))
    (hfollow : document.follow? ["types", language] langs = some type)
    (hdeep : type < bound ∨ limit ≤ type)
    (htext : ∀ text, document.value type ≠ .str text) (dropped : Nat) :
    Mirrors document dropped (keepAll language step Prod.snd (setChild "type" type entries))
      (gather (outcomes language none (some (givenOutcome language values (document.value type)))
        ((setChild "type" type entries).map fun entry => (entry.1, document.value entry.2))))
      (Leaves language limit region document (setChild "type" type entries)) := by
  obtain ⟨first, second, hsplit, hsub⟩ := exists_setChild "type" type entries
  have hkey : ("langs" : Text) ≠ "type" := by decide
  have hmem : (("langs" : Text), langs) ∈ first ++ second := by
    have hfound : Text.find? "langs" (setChild "type" type entries) = some langs :=
      (find?_withChild_of_ne hkey (some type) entries).trans hlangs
    have hmem := Json.mem_of_find? hfound
    rw [hsplit] at hmem
    rcases List.mem_cons.mp (List.perm_middle.mem_iff.mp hmem) with heq | hrest
    · exact absurd (congrArg Prod.fst heq) hkey
    · exact hrest
  have hreached : reachesTypes language values = true ∧
      isAvailable language (document.value type) = .ok true ↔
      isAvailable language (document.value langs) = .ok true ∧
        Opens language document ["types", language] langs := by
    obtain ⟨types, htypes, hrest⟩ := follow?_cons.mp hfollow
    obtain ⟨last, htype, hlast⟩ := follow?_cons.mp hrest
    obtain rfl := Option.some.inj hlast
    obtain ⟨langsValues, hlangsValue, htypesValue⟩ := hsound.value_of_child? htypes
    rw [hlangsValue] at hvalue ⊢
    rw [reachesTypes_iff hvalue htypesValue, opens_cons htypes, opens_cons htype]
    simp [Opens, and_assoc]
  have hshares : Shares language limit bound part document (first ++ second) langs type
      (reachesTypes language values) :=
    ⟨hspread.sublist hsub, hmem, hfollow, hdeep, hreached⟩
  rw [hsplit] at hkeys ⊢
  rw [outcomes_type _ hkeys, givenOutcome_eq_countedOnce htext]
  exact mirrors_around hword hstep hsound hshares hici
    (fun entry hentry => hregion entry (hsub.subset hentry)) dropped

/-- What a node that got its name and its type holds is restricted as its entries are. -/
theorem mirrors_dressed {entries entries' : List (Text × Nat)} {values : List (Text × Json)}
    {name : Option Text} {given : Option Json} {name? type? : Option Nat}
    (hword : isEntryWord language = false) (hstep : Restricts language limit bound step)
    (hsound : Sound limit document) (hcell : document.cell node = .object entries)
    (hvalue : document.value node = .obj values)
    (hparts : Parts language limit document region node part)
    (hproper : (document.value node).Proper) (hdeep : node < bound + 1)
    (hdressed : Dressed language limit node name given entries name? type? document document')
    (hcell' : document'.cell node = .object entries') (hkeys : (entries'.map Prod.fst).Nodup)
    (dropped : Nat) :
    Mirrors document' dropped (keepAll language step Prod.snd entries')
      (gather (outcomes language none (given.map (givenOutcome language values))
        (entries'.map fun entry => (entry.1, document'.value entry.2))))
      (Leaves language limit (region ∩ {node}ᶜ) document' entries') := by
  obtain rfl := Cell.object.inj (hdressed.cell.symm.trans hcell')
  have hici : Set.Ici limit ⊆ region ∩ {node}ᶜ := fun other hother =>
    ⟨hparts.made hother, ici_subset_compl hparts.start hother⟩
  obtain ⟨hnamed, hinside⟩ := hparts.spread_named hsound hcell hproper hdeep hdressed
  have htyped := hdressed.typed
  cases type? with
  | none =>
      obtain rfl : given = none := by
        cases given with
        | none => rfl
        | some given => cases htyped
      exact mirrors_unshared hword hstep hdressed.sound hnamed hinside
        (fun entry _ => entryOutcome_none _ _) dropped
  | some type =>
      obtain ⟨given, rfl⟩ : ∃ own, given = some own := by
        cases given with
        | none => cases htyped
        | some given => exact ⟨given, rfl⟩
      have htypeValue : document'.value type = typeFor given := Option.some.inj htyped
      obtain ⟨hmade, text, htext⟩ | ⟨htext, hfollow⟩ := hdressed.foundType type rfl
      · obtain rfl := Option.some.inj htext
        have hmem : (("type" : Text), type) ∈
            withChild "type" (some type) (withChild "name" name? entries) := mem_setChild _ _ _
        have hsize := (hdressed.sound.below node type (mem_children_of_mem hcell' hmem)).1
        exact mirrors_typeMade hword hstep hdressed.sound hici hnamed hinside hkeys hmade hsize
          htypeValue dropped
      · obtain ⟨langs, hlangs, hrest⟩ := follow?_cons.mp hfollow
        have havoid := hsound.within_child (mem_children_of_child? hlangs)
        obtain ⟨_, hobject, hfound⟩ := child?_eq_some.mp hlangs
        obtain rfl := Cell.object.inj (hcell.symm.trans hobject)
        have hgiven : document'.value type = given := by
          rw [htypeValue]
          cases given with
          | str text => exact absurd rfl (htext text)
          | _ => rfl
        have hlangsKey : ("langs" : Text) ≠ "name" := by decide
        have hlangsValue : Text.find? "langs" values = some (document'.value langs) := by
          obtain ⟨_, hobject, hlangsValue⟩ := hsound.value_of_child? hlangs
          obtain rfl := Json.obj.inj (hvalue.symm.trans hobject)
          rw [hlangsValue, havoid.value_agree hsound hdressed.sound hdressed.agree]
        have hall := mirrors_shared hword hstep hdressed.sound hici hnamed hinside hkeys
          ((find?_withChild_of_ne hlangsKey name? entries).trans hfound) hlangsValue
          ((havoid.follow?_agree hdressed.agree _).trans hrest)
          (deep_of_under (hsound.under_of_follow?_cons hfollow) hparts.start hdeep)
          (fun text heq => htext text (by rw [← hgiven, heq])) dropped
        rw [hgiven] at hall
        exact hall

/-! ## Every node -/

theorem Dressed.visited {entries entries' kept : List (Text × Nat)} {left : List (Text × Json)}
    {name : Option Text} {given : Option Json} {name? type? : Option Nat} {after : Document}
    {count : Nat}
    (hdressed : Dressed language limit node name given entries name? type? document document')
    (hsound : Sound limit document) (hcell : document.cell node = .object entries)
    (hcell' : document'.cell node = .object entries')
    (hparts : Parts language limit document region node part)
    (hunsettled : ¬ Settled language (document.value node))
    (hleaves : Leaves language limit (region ∩ {node}ᶜ) document' entries' after kept left)
    (hrun : restrictAt language [] (document.value node) = .ok (.obj left, count))
    (hsettled : Settled language (.obj left)) :
    Visited language limit region node document (after.put node (.object kept)) (.obj left) := by
  obtain ⟨hgathered, hleft⟩ := hleaves
  have hchange : Leads language limit region document document' := (Leads.refl hsound).change
    hsound hdressed.sound hdressed.agree hparts.start hparts.mem hunsettled
  have hleads := hchange.trans (hgathered.leads region fun _ _ => Set.inter_subset_left)
  have hkept : ∀ child ∈ (Cell.object kept).children, ∃ entry ∈ kept, entry.2 = child :=
    fun child hchild => List.mem_map.mp hchild
  refine visited_of_put hsound hparts hunsettled hleads (by simp) (fun child hchild => ?_)
    (fun child hchild => ?_) ?_ hsettled hrun fun key child hkey hchild => ?_
  · obtain ⟨entry, hentry, rfl⟩ := hkept child hchild
    exact (hdressed.sound.below node entry.2
      (mem_children_of_mem hcell' (hgathered.sublist.subset hentry))).2
  · obtain ⟨entry, hentry, rfl⟩ := hkept child hchild
    exact (hgathered.rests entry hentry).2
  · rw [hleft]
    rfl
  · obtain rfl := Cell.object.inj (hdressed.cell.symm.trans hcell')
    obtain ⟨_, hobject, hfound⟩ := child?_eq_some.mp hchild
    obtain rfl := Cell.object.inj (hcell.symm.trans hobject)
    have havoid := hsound.within_child (mem_children_of_child? hchild)
    have hmem : (key, child) ∈ withChild "type" type? (withChild "name" name? entries) := by
      refine Json.mem_of_find? ?_
      rw [find?_withChild_of_ne hkey.2.1, find?_withChild_of_ne hkey.1, hfound]
    have htracks := hgathered.tracks (key, child) hmem hkey
    rw [havoid.value_agree hsound hdressed.sound hdressed.agree] at htracks
    exact htracks.before havoid hsound hdressed.sound hdressed.agree

theorem mirrors_object {entries : List (Text × Nat)} (hword : isEntryWord language = false)
    (hstep : Restricts language limit bound (restrictNode language bound))
    (hsound : Sound limit document) (hcell : document.cell node = .object entries)
    (hparts : Parts language limit document region node part)
    (hproper : (document.value node).Proper) (hdeep : node < bound + 1)
    (hunsettled : ¬ Settled language (document.value node)) (dropped : Nat) :
    Mirrors document dropped (restrictNode language (bound + 1) node)
      (restrictAt language [] (document.value node))
      fun document' _ left => Visited language limit region node document document' left := by
  obtain ⟨values, hvalue⟩ : ∃ values, document.value node = .obj values :=
    ⟨_, hsound.value_object hcell⟩
  have hkeys : (values.map Prod.fst).Nodup := by
    rw [hvalue, Json.Proper] at hproper
    exact hproper.1
  cases hname : alias? language values with
  | error failure =>
      rw [hvalue, restrictAt_aliasError hname]
      exact run_restrictNode_failed hcell (run_dress_aliasError hcell hvalue hname dropped) bound
  | ok name =>
      cases hgiven : givenType? language (renamed name values) with
      | error failure =>
          have hdress := run_dress_typeError hsound hparts.start hcell hvalue hname hgiven dropped
          rw [hvalue, restrictAt_typeError hname hgiven]
          exact run_restrictNode_failed hcell hdress bound
      | ok given =>
          obtain ⟨middle, name?, type?, hdress, hdressed, hmiddle⟩ :=
            run_dress hsound hparts.start hcell hvalue hname hgiven dropped
          have hcell' := hdressed.cell
          generalize withChild "type" type? (withChild "name" name? entries) = entries' at hcell'
          rw [hdressed.sound.value_object hcell'] at hmiddle
          have happlied := Json.obj.inj hmiddle
          have hkeys' : (entries'.map Prod.fst).Nodup := by
            have hnodup : ((applied name given values).map Prod.fst).Nodup := nodup_applied hkeys
            rw [← happlied, List.map_map] at hnodup
            exact hnodup
          have hall := mirrors_dressed hword hstep hsound hcell hvalue hparts hproper hdeep hdressed
            hcell' hkeys' dropped
          have houtcome := restrictAt_applied hkeys hname hgiven
          rw [happlied] at hall
          rw [hvalue, houtcome]
          refine hall.put Cell.object (run_restrictNode_dressed hcell hdress hcell' bound)
            fun after kept left count hgather hleaves => ?_
          have hrun : restrictAt language [] (document.value node) = .ok (.obj left, count) := by
            rw [hvalue, houtcome, hgather]
            rfl
          exact hdressed.visited hsound hcell hcell' hparts hunsettled hleaves hrun
            (settled_restrictAt hword hproper hrun).1

theorem mirrors_settled (hsound : Sound limit document)
    (hlaid : Laid language limit document region node) (hproper : (document.value node).Proper)
    (hsettled : Settled language (document.value node)) (depth dropped : Nat) :
    Mirrors document dropped (restrictNode language depth node)
      (restrictAt language [] (document.value node))
      fun document' _ left => Visited language limit region node document document' left := by
  have hwithin := hlaid.within hsound
  obtain ⟨document', hrun, hleads⟩ := stays_restrictNode language limit depth document node dropped
    hsound hwithin.lt_size hsettled
  rw [restrictAt_of_settled hsettled hproper]
  exact ⟨(), document', hrun,
    visited_of_settled hsound hlaid hproper hsettled (hleads region hlaid.ici_subset hwithin)⟩

/-- Restricting a laid out node restricts its value. -/
theorem restricts_restrictNode (hword : isEntryWord language = false) (limit depth : Nat) :
    Restricts language limit depth (restrictNode language depth) := by
  induction depth with
  | zero =>
      intro document node region dropped hsound hlaid hproper hdeep
      exact mirrors_settled hsound hlaid hproper (settled_made hsound (by omega)) 0 dropped
  | succ depth ih =>
      intro document node region dropped hsound hlaid hproper hdeep
      by_cases hsettled : Settled language (document.value node)
      · exact mirrors_settled hsound hlaid hproper hsettled (depth + 1) dropped
      · obtain ⟨part, hparts⟩ := hlaid.exists_parts hsettled
        have hstart := hparts.start
        have hnode : node < depth + 1 := by omega
        cases hcell : document.cell node with
        | leaf value =>
            rw [hsound.value_leaf hcell] at hsettled
            obtain ⟨harr, hobj⟩ := hsound.scalar node value hcell
            exact absurd (.scalar harr hobj) hsettled
        | list items =>
            exact mirrors_list hword ih hsound hcell hparts hproper hnode hsettled dropped
        | object entries =>
            exact mirrors_object hword ih hsound hcell hparts hproper hnode hsettled dropped

end Availability
end ApiBindings
