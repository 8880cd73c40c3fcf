import ApiBindings.Proofs.Schema.Dressing
/-!
# Restricting a shared node once more

A node that stands in several places is restricted once for each of them.  When
that is done again, the value of the node is settled, and then every step of it
puts in place what is there already.  So no value changes and nothing is dropped,
however much of the node is shared in turn.
-/

namespace ApiBindings
namespace Availability

open Document

variable {language : Text} {limit node : Nat} {document document' document'' : Document}
  {region region' : Set Nat}

/-! ## What a visit may change -/

theorem ici_subset_compl (hnode : node < limit) : Set.Ici limit ⊆ {node}ᶜ := by
  intro made hmade heq
  obtain rfl : made = node := heq
  exact absurd hnode (Nat.not_lt.mpr hmade)

theorem kept_subset_compl (hnode : node < limit) (hmem : node ∈ region) :
    {other | other ∈ region → limit ≤ other} ⊆ {node}ᶜ := by
  intro other hother heq
  obtain rfl : other = node := heq
  exact absurd (hother hmem) (Nat.not_le.mpr hnode)

/-- What restricting a node may do to a document: it changes nodes of a region
only, among those from the beginning, and what is settled keeps its value and
reaches nothing more but nodes that were made. -/
structure Leads (language : Text) (limit : Nat) (region : Set Nat)
    (document document' : Document) : Prop where
  sound : Sound limit document'
  agree : Agree {node | node ∈ region → limit ≤ node} document document'
  keeps : ∀ node < document.cells.size, Settled language (document.value node) →
    document'.value node = document.value node ∧
      ∀ region', Set.Ici limit ⊆ region' → document.Within region' node →
        document'.Within region' node

theorem Leads.refl (hsound : Sound limit document) :
    Leads language limit region document document where
  sound := hsound
  agree := ⟨Nat.le_refl _, fun _ _ _ => rfl⟩
  keeps _ _ _ := ⟨rfl, fun _ _ hwithin => hwithin⟩

theorem Leads.trans (hleads : Leads language limit region document document')
    (hleads' : Leads language limit region document' document'') :
    Leads language limit region document document'' where
  sound := hleads'.sound
  agree := hleads.agree.trans hleads'.agree
  keeps node hnode hsettled := by
    obtain ⟨hvalue, hwithin⟩ := hleads.keeps node hnode hsettled
    obtain ⟨hvalue', hwithin'⟩ := hleads'.keeps node (Nat.lt_of_lt_of_le hnode hleads.agree.1)
      (hvalue ▸ hsettled)
    exact ⟨hvalue'.trans hvalue, fun region' hregion hreached =>
      hwithin' region' hregion (hwithin region' hregion hreached)⟩

theorem Leads.mono (hleads : Leads language limit region document document')
    (hregion : region ⊆ region') :
    Leads language limit region' document document' where
  sound := hleads.sound
  agree := hleads.agree.mono fun _ hnode hmem => hnode (hregion hmem)
  keeps := hleads.keeps

/-- What is settled rests also after another visit. -/
theorem Leads.rests (hleads : Leads language limit region' document document')
    (hici : Set.Ici limit ⊆ region) (hsettled : Settled language (document.value node))
    (hwithin : document.Within region node) :
    document'.value node = document.value node ∧ Settled language (document'.value node) ∧
      document'.Within region node := by
  obtain ⟨hvalue, hkept⟩ := hleads.keeps node hwithin.lt_size hsettled
  exact ⟨hvalue, hvalue ▸ hsettled, hkept region hici hwithin⟩

theorem within_compl_of_settled (hsound : Sound limit document) {other : Nat}
    (hother : other < document.cells.size) (hsettled : Settled language (document.value other))
    (hnode : ¬ Settled language (document.value node)) : document.Within {node}ᶜ other := by
  induction other using hsound.induct with
  | hstep other ih =>
      refine .intro hother (fun heq => hnode (heq ▸ hsettled)) fun child hchild => ?_
      exact ih child hchild (hsound.below other child hchild).1
        (hsettled.of_child (hsound.child_value hchild)).1

/-- A node that was not settled may be replaced. -/
theorem Leads.change (hleads : Leads language limit region document document')
    (hsound : Sound limit document) (hsound' : Sound limit document'')
    (hagree : Agree {node}ᶜ document' document'') (hnode : node < limit) (hmem : node ∈ region)
    (hunsettled : ¬ Settled language (document.value node)) :
    Leads language limit region document document'' where
  sound := hsound'
  agree := hleads.agree.trans (hagree.mono (kept_subset_compl hnode hmem))
  keeps other hother hsettled := by
    obtain ⟨hvalue, hwithin⟩ := hleads.keeps other hother hsettled
    have havoid : document'.Within {node}ᶜ other :=
      hwithin _ (ici_subset_compl hnode)
        (within_compl_of_settled hsound hother hsettled hunsettled)
    exact ⟨(havoid.value_agree hleads.sound hsound' hagree).trans hvalue,
      fun region' hregion hreached =>
        havoid.agree (hwithin region' hregion hreached) hagree⟩

theorem leads_of_same (hsound : Sound limit document) (hsound' : Sound limit document')
    (hagree : Agree {node}ᶜ document document') (hnode : node < limit) (hmem : node ∈ region)
    (hvalue : document'.value node = document.value node)
    (hwithin : ∀ region', Set.Ici limit ⊆ region' → document.Within region' node →
      document'.Within region' node) :
    Leads language limit region document document' where
  sound := hsound'
  agree := hagree.mono (kept_subset_compl hnode hmem)
  keeps _ hother _ := ⟨hsound.value_of_agree hsound' hagree hvalue hother,
    fun region' hregion hreached => hreached.of_agree hagree (hwithin region' hregion)⟩

/-! ## Visits to settled nodes -/

theorem run_restrictNode_made (hsound : Sound limit document) (hlimit : limit ≤ node)
    (depth dropped : Nat) :
    (restrictNode language depth node).run ⟨document, dropped⟩ = .ok ((), ⟨document, dropped⟩) := by
  obtain ⟨value, hleaf⟩ | ⟨child, text, hcell, hleaf⟩ := hsound.made node hlimit
  · exact run_restrictNode_leaf hleaf depth dropped
  · cases depth with
    | zero => rfl
    | succ depth =>
        have hvalue : document.value node = .obj [("name", .str text)] := by
          rw [hsound.value_object hcell, List.map_singleton, hsound.value_leaf hleaf]
        have hdress : (dress language node).run ⟨document, dropped⟩ =
            .ok ((), ⟨document, dropped⟩) := by
          rw [dress, StateT.run_bind, run_applyAlias hcell hvalue]
          exact run_applyType hcell hvalue dropped
        have havailable : isAvailable language (document.value child) = .ok true := by
          rw [hsound.value_leaf hleaf]
          rfl
        rw [run_restrictNode_dressed hcell hdress hcell, keepAll_cons, run_bind_of_ok
          (run_keepNode_kept havailable (run_restrictNode_leaf hleaf depth dropped))]
        change Except.ok ((), Progress.mk (document.put node (.object [("name", child)])) dropped) = _
        rw [← hcell, put_cell]

/-- What is known of a step that restricts nodes: on a settled one it changes no
value and drops nothing. -/
def Stays (language : Text) (limit : Nat) (step : Nat → Restricting Unit) : Prop :=
  ∀ (document : Document) (node dropped : Nat), Sound limit document →
    node < document.cells.size → Settled language (document.value node) →
    ∃ document', (step node).run ⟨document, dropped⟩ = .ok ((), ⟨document', dropped⟩) ∧
      ∀ region, Set.Ici limit ⊆ region → document.Within region node →
        Leads language limit region document document'

theorem run_keepAll_settled {α : Type} {step : Nat → Restricting Unit}
    (hstep : Stays language limit step) (target : α → Nat) (things : List α)
    (hsound : Sound limit document) (dropped : Nat)
    (hthings : ∀ thing ∈ things, target thing < document.cells.size ∧
      Settled language (document.value (target thing)) ∧
      isAvailable language (document.value (target thing)) = .ok true) :
    ∃ document', (keepAll language step target things).run ⟨document, dropped⟩ =
        .ok (things, ⟨document', dropped⟩) ∧
      ∀ region, Set.Ici limit ⊆ region → (∀ thing ∈ things, document.Within region (target thing)) →
        Leads language limit region document document' := by
  induction things generalizing document with
  | nil => exact ⟨document, rfl, fun _ _ _ => .refl hsound⟩
  | cons thing rest ih =>
      obtain ⟨⟨hsize, hsettled, havailable⟩, hrest⟩ := List.forall_mem_cons.mp hthings
      obtain ⟨middle, hrun, hleads⟩ := hstep document (target thing) dropped hsound hsize hsettled
      have hall : Leads language limit Set.univ document middle :=
        hleads _ (Set.subset_univ _) (hsound.within_univ hsize)
      have hkept : ∀ other ∈ rest, target other < middle.cells.size ∧
          Settled language (middle.value (target other)) ∧
          isAvailable language (middle.value (target other)) = .ok true := by
        intro other hother
        obtain ⟨hsize, hsettled, havailable⟩ := hrest other hother
        rw [(hall.keeps _ hsize hsettled).1]
        exact ⟨Nat.lt_of_lt_of_le hsize hall.agree.1, hsettled, havailable⟩
      obtain ⟨document', hrun', hleads'⟩ := ih hall.sound hkept
      refine ⟨document', ?_, fun region hregion hwithin => ?_⟩
      · rw [keepAll_cons, run_bind_of_ok (run_keepNode_kept havailable hrun),
          run_bind_of_ok hrun']
        rfl
      · obtain ⟨hthing, hothers⟩ := List.forall_mem_cons.mp hwithin
        have hfirst := hleads region hregion hthing
        refine hfirst.trans (hleads' region hregion fun other hother => ?_)
        obtain ⟨hsize, hsettled, -⟩ := hrest other hother
        exact (hfirst.keeps _ hsize hsettled).2 region hregion (hothers other hother)

theorem Settled.children (hsound : Sound limit document)
    (hsettled : Settled language (document.value node)) {child : Nat}
    (hchild : child ∈ (document.cell node).children) :
    child < document.cells.size ∧ Settled language (document.value child) ∧
      isAvailable language (document.value child) = .ok true :=
  ⟨(hsound.below node child hchild).1, hsettled.of_child (hsound.child_value hchild)⟩

/-- The nodes in a node stay when it is restricted, and they leave it as it is. -/
theorem run_keepAll_children {α : Type} {step : Nat → Restricting Unit}
    (hstep : Stays language limit step) (target : α → Nat) (things : List α)
    (hsound : Sound limit document) (hnode : node < limit)
    (hsettled : Settled language (document.value node))
    (hcell : (document.cell node).children = things.map target) (dropped : Nat) :
    ∃ document', (keepAll language step target things).run ⟨document, dropped⟩ =
        .ok (things, ⟨document', dropped⟩) ∧ document'.cell node = document.cell node ∧
      ∀ region, Set.Ici limit ⊆ region → document.Within region node →
        Leads language limit region document document' := by
  have hmem : ∀ thing ∈ things, target thing ∈ (document.cell node).children := by
    intro thing hthing
    rw [hcell]
    exact List.mem_map_of_mem hthing
  obtain ⟨document', hrun, hleads⟩ := run_keepAll_settled hstep target things hsound dropped
    fun thing hthing => hsettled.children hsound (hmem thing hthing)
  refine ⟨document', hrun, ?_, fun region hregion hwithin =>
    hleads region hregion fun thing hthing => hwithin.child (hmem thing hthing)⟩
  have hothers := hleads {node}ᶜ (ici_subset_compl hnode) fun thing hthing =>
    hsound.within_child (hmem thing hthing)
  exact hothers.agree.2 node (Nat.lt_of_lt_of_le hnode hsound.bound) (fun hmem => absurd rfl hmem)

/-- A settled node is left with its value by any further visit. -/
theorem stays_restrictNode (language : Text) (limit depth : Nat) :
    Stays language limit (restrictNode language depth) := by
  induction depth with
  | zero => exact fun document node dropped hsound _ _ =>
      ⟨document, rfl, fun _ _ _ => .refl hsound⟩
  | succ depth ih =>
      intro document node dropped hsound hsize hsettled
      by_cases hlimit : limit ≤ node
      · exact ⟨document, run_restrictNode_made hsound hlimit _ _, fun _ _ _ => .refl hsound⟩
      have hnode : node < limit := Nat.lt_of_not_le hlimit
      cases hcell : document.cell node with
      | leaf value => exact ⟨document, run_restrictNode_leaf hcell _ _, fun _ _ _ => .refl hsound⟩
      | list items =>
          obtain ⟨document', hrun, hkept, hleads⟩ := run_keepAll_children ih id items hsound hnode
            hsettled (by rw [hcell, List.map_id]; rfl) dropped
          refine ⟨document', ?_, hleads⟩
          rw [run_restrictNode_list hcell, hrun]
          change Except.ok ((), Progress.mk (document'.put node (.list items)) dropped) = _
          rw [← hcell, ← hkept, put_cell]
      | object entries =>
          have hvalue := hsound.value_object hcell
          have hnodeSettled : SettledNode language
              (entries.map fun entry => (entry.1, document.value entry.2)) := by
            rw [hvalue] at hsettled
            cases hsettled with
            | scalar _ hobj => exact absurd rfl (hobj _)
            | obj hnode => exact hnode
          obtain ⟨name, given, hname, hgiven, hfound⟩ := hnodeSettled
          have hrenamed := renamed_eq_self hfound
          obtain ⟨middle, name?, type?, hdress, hdressed, hvalue'⟩ :=
            run_dress hsound hnode hcell hvalue hname (hrenamed ▸ hgiven) dropped
          have hsame : middle.value node = document.value node := by
            rw [hvalue', hvalue, applied_eq_self hfound]
          obtain ⟨document', hrun, hkept, hleads⟩ := run_keepAll_children ih Prod.snd _
            hdressed.sound hnode (hsame ▸ hsettled) (by rw [hdressed.cell]; rfl) dropped
          refine ⟨document', ?_, fun region hregion hwithin => ?_⟩
          · rw [run_restrictNode_dressed hcell hdress hdressed.cell, hrun]
            change Except.ok ((), Progress.mk (document'.put node (.object
              (withChild "type" type? (withChild "name" name? entries)))) dropped) = _
            rw [← hdressed.cell, ← hkept, put_cell]
          · have hfirst : Leads language limit region document middle :=
              leads_of_same hsound hdressed.sound hdressed.agree hnode hwithin.mem hsame
                fun region' hregion' hreached => hdressed.within hsound hcell hregion' hreached
            have hreached := hdressed.within hsound hcell hregion hwithin
            exact hfirst.trans (hleads region hregion hreached)

end Availability
end ApiBindings
