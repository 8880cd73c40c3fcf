import ApiBindings.Proofs.Schema.Revisits
/-!
# Restricting the nodes of a document

A node that was not restricted yet is laid out in a part of the document of its
own, and so is what stands in it, one part beside the other; all that is shared
is settled already.  Restricting such a node gives what restricting its value
gives: the same failure, or the same value and the same number of nodes dropped.
-/

namespace ApiBindings
namespace Availability

open Document

variable {language : Text} {limit node : Nat} {document document' : Document}

/-! ## Visits that mirror an outcome -/

/-- A visit ends as an outcome says: with the same failure, or with as many nodes
dropped and a document and a result that what was left stands for. -/
def Mirrors {α β : Type} (document : Document) (dropped : Nat) (visit : Restricting α)
    (outcome : Except Failure (β × Nat)) (post : Document → α → β → Prop) : Prop :=
  match outcome with
  | .error failure => visit.run ⟨document, dropped⟩ = .error failure
  | .ok (left, count) => ∃ a document', visit.run ⟨document, dropped⟩ =
      .ok (a, ⟨document', dropped + count⟩) ∧ post document' a left

section

variable {α β γ δ : Type} {dropped : Nat} {visit : Restricting α} {next : α → Restricting γ}
  {outcome : Except Failure (β × Nat)} {rest : β → Except Failure (δ × Nat)}
  {post : Document → α → β → Prop} {post' : Document → γ → δ → Prop}

theorem Mirrors.bind (hvisit : Mirrors document dropped visit outcome post)
    (hnext : ∀ document' a left count, outcome = .ok (left, count) → post document' a left →
      Mirrors document' (dropped + count) (next a) (rest left) post') :
    Mirrors document dropped (visit >>= next) (andThen outcome rest) post' := by
  cases outcome with
  | error failure => exact run_bind_of_error hvisit
  | ok here =>
      obtain ⟨left, count⟩ := here
      obtain ⟨a, document', hrun, hpost⟩ := hvisit
      have hrest := hnext document' a left count rfl hpost
      change Mirrors document dropped (visit >>= next)
        ((rest left).bind fun others => .ok (others.1, count + others.2)) post'
      cases htail : rest left with
      | error failure =>
          rw [htail] at hrest
          exact (run_bind_of_ok hrun).trans hrest
      | ok others =>
          rw [htail] at hrest
          obtain ⟨c, document'', hrun', hpost'⟩ := hrest
          refine ⟨c, document'', (run_bind_of_ok hrun).trans ?_, hpost'⟩
          rw [hrun', Nat.add_assoc]

theorem Mirrors.imp {post'' : Document → α → β → Prop}
    (hvisit : Mirrors document dropped visit outcome post)
    (hpost : ∀ document' a left, post document' a left → post'' document' a left) :
    Mirrors document dropped visit outcome post'' := by
  cases outcome with
  | error failure => exact hvisit
  | ok here =>
      obtain ⟨a, document', hrun, hleft⟩ := hvisit
      exact ⟨a, document', hrun, hpost document' a _ hleft⟩

theorem Mirrors.of_run {a : α} {left : β} {count : Nat}
    (hvisit : Mirrors document dropped visit (.ok (left, count)) post)
    (hrun : visit.run ⟨document, dropped⟩ = .ok (a, ⟨document', dropped + count⟩)) :
    post document' a left := by
  obtain ⟨a', after, hrun', hpost⟩ := hvisit
  have hsame := hrun'.symm.trans hrun
  simp only [Except.ok.injEq, Prod.mk.injEq, Progress.mk.injEq, and_true] at hsame
  rw [← hsame.1, ← hsame.2]
  exact hpost

/-- What is dropped in a first visit is added to what is dropped afterwards. -/
theorem Mirrors.after {count : Nat} {a : α} {others : Except Failure (δ × Nat)}
    (hrun : visit.run ⟨document, dropped⟩ = .ok (a, ⟨document', dropped + count⟩))
    (hnext : Mirrors document' (dropped + count) (next a) others post') :
    Mirrors document dropped (visit >>= next) (adding count others) post' := by
  cases others with
  | error failure => exact (run_bind_of_ok hrun).trans hnext
  | ok here =>
      obtain ⟨left, countOthers⟩ := here
      obtain ⟨c, document'', hrun', hpost⟩ := hnext
      refine ⟨c, document'', (run_bind_of_ok hrun).trans ?_, hpost⟩
      rw [hrun', Nat.add_assoc, Nat.add_comm count]

/-- What was kept of the things in a node is put in its place. -/
theorem Mirrors.put {keep : Restricting α} {visit' : Restricting Unit} (wrap : α → Cell)
    {place : β → δ} {post' : Document → Unit → δ → Prop}
    (hkeep : Mirrors document' dropped keep outcome post)
    (hrun : visit'.run ⟨document, dropped⟩ = (do
      let (kept, after) ← keep.run ⟨document', dropped⟩
      .ok ((), ⟨after.document.put node (wrap kept), after.dropped⟩)))
    (hpost : ∀ after kept left count, outcome = .ok (left, count) → post after kept left →
      post' (after.put node (wrap kept)) () (place left)) :
    Mirrors document dropped visit' (outcome.map (Prod.map place id)) post' := by
  cases outcome with
  | error failure =>
      have hfailed : keep.run ⟨document', dropped⟩ = .error failure := hkeep
      rw [hfailed] at hrun
      exact hrun
  | ok here =>
      obtain ⟨left, count⟩ := here
      obtain ⟨kept, after, hkept, hleft⟩ := hkeep
      rw [hkept] at hrun
      exact ⟨(), after.put node (wrap kept), hrun, hpost after kept left count rfl hleft⟩

/-- The result of a visit is made into another one, and so is what was left. -/
theorem Mirrors.map {f : α → γ} {place : β → δ}
    (hvisit : Mirrors document dropped visit outcome post)
    (hpost : ∀ document' a left, post document' a left → post' document' (f a) (place left)) :
    Mirrors document dropped (visit >>= fun a => pure (f a)) (outcome.map (Prod.map place id))
      post' := by
  cases outcome with
  | error failure => exact run_bind_of_error hvisit
  | ok here =>
      obtain ⟨a, document', hrun, hleft⟩ := hvisit
      exact ⟨f a, document', (run_bind_of_ok hrun).trans rfl, hpost document' a _ hleft⟩

end

/-! ## Laid out nodes -/

/-- Two parts of a document that share nothing but nodes that were made later. -/
def Apart (limit : Nat) (part other : Set Nat) : Prop :=
  part ∩ other ⊆ Set.Ici limit

theorem Apart.symm {part other : Set Nat} (hapart : Apart limit part other) :
    Apart limit other part := by
  unfold Apart
  rw [Set.inter_comm]
  exact hapart

/-- The part of one thing is beside those of the others. -/
theorem pairwise_apart_middle {α : Type} {part : α → Set Nat} {front back : List α} {thing : α} :
    (front ++ thing :: back).Pairwise (fun a b => Apart limit (part a) (part b)) ↔
      (∀ other ∈ front ++ back, Apart limit (part thing) (part other)) ∧
        (front ++ back).Pairwise fun a b => Apart limit (part a) (part b) :=
  (List.pairwise_middle fun hapart => hapart.symm).trans List.pairwise_cons

/-- A node that is settled, or one from the beginning that holds nodes which are
laid out in parts of its region beside each other and beside it. -/
inductive Laid (language : Text) (limit : Nat) (document : Document) : Set Nat → Nat → Prop
  | rest {region : Set Nat} {node : Nat} (hregion : Set.Ici limit ⊆ region)
      (hsettled : Settled language (document.value node))
      (hwithin : document.Within region node) : Laid language limit document region node
  | node {region : Set Nat} {node : Nat} (part : Nat → Set Nat) (hnode : node < limit)
      (hregion : Set.Ici limit ⊆ region) (hmem : node ∈ region)
      (hinside : ∀ child ∈ (document.cell node).children, part child ⊆ region ∩ {node}ᶜ)
      (hapart : (document.cell node).children.Pairwise fun a b => Apart limit (part a) (part b))
      (hchildren : ∀ child ∈ (document.cell node).children,
        Laid language limit document (part child) child) :
      Laid language limit document region node

section

variable {region region' : Set Nat}

theorem Laid.ici_subset (hlaid : Laid language limit document region node) :
    Set.Ici limit ⊆ region := by
  cases hlaid <;> assumption

theorem Laid.mono (hlaid : Laid language limit document region node) (hregion : region ⊆ region') :
    Laid language limit document region' node := by
  cases hlaid with
  | rest hici hsettled hwithin => exact .rest (hici.trans hregion) hsettled (hwithin.mono hregion)
  | node part hnode hici hmem hinside hapart hchildren =>
      exact .node part hnode (hici.trans hregion) (hregion hmem)
        (fun child hchild => (hinside child hchild).trans (Set.inter_subset_inter_left _ hregion))
        hapart hchildren

theorem Laid.within (hlaid : Laid language limit document region node)
    (hsound : Sound limit document) : document.Within region node := by
  induction hlaid with
  | rest _ _ hwithin => exact hwithin
  | node part hnode _ hmem hinside _ _ ih =>
      exact .intro (Nat.lt_of_lt_of_le hnode hsound.bound) hmem fun child hchild =>
        (ih child hchild).mono ((hinside child hchild).trans Set.inter_subset_left)

/-- What is laid out in a region stays so while the region is not changed. -/
theorem Laid.agree (hlaid : Laid language limit document region node)
    (hsound : Sound limit document) (hsound' : Sound limit document')
    (hagree : Agree region document document') :
    Laid language limit document' region node := by
  induction hlaid with
  | rest hici hsettled hwithin =>
      refine .rest hici ?_ (hwithin.agree hwithin hagree)
      rw [hwithin.value_agree hsound hsound' hagree]
      exact hsettled
  | @node region node part hnode hici hmem hinside hapart hchildren ih =>
      have hcell : document'.cell node = document.cell node :=
        hagree.2 node (Nat.lt_of_lt_of_le hnode hsound.bound) hmem
      refine .node part hnode hici hmem ?_ ?_ ?_ <;> rw [hcell]
      · exact hinside
      · exact hapart
      · exact fun child hchild => ih child hchild
          (hagree.mono ((hinside child hchild).trans Set.inter_subset_left))

/-- What is settled stays laid out. -/
theorem Laid.keep (hlaid : Laid language limit document region node)
    (hsound : Sound limit document) (hsettled : Settled language (document.value node))
    (hleads : Leads language limit region' document document') :
    Laid language limit document' region node := by
  have hwithin := hlaid.within hsound
  obtain ⟨hvalue, hkept⟩ := hleads.keeps node hwithin.lt_size hsettled
  exact .rest hlaid.ici_subset (hvalue ▸ hsettled) (hkept region hlaid.ici_subset hwithin)

/-- The parts in which the nodes right in a node are laid out. -/
structure Parts (language : Text) (limit : Nat) (document : Document) (region : Set Nat)
    (node : Nat) (part : Nat → Set Nat) : Prop where
  start : node < limit
  made : Set.Ici limit ⊆ region
  mem : node ∈ region
  inside : ∀ child ∈ (document.cell node).children, part child ⊆ region ∩ {node}ᶜ
  apart : (document.cell node).children.Pairwise fun a b => Apart limit (part a) (part b)
  laid : ∀ child ∈ (document.cell node).children, Laid language limit document (part child) child

theorem Laid.exists_parts (hlaid : Laid language limit document region node)
    (hunsettled : ¬ Settled language (document.value node)) :
    ∃ part, Parts language limit document region node part := by
  cases hlaid with
  | rest _ hsettled => exact absurd hsettled hunsettled
  | node part hnode hici hmem hinside hapart hchildren =>
      exact ⟨part, hnode, hici, hmem, hinside, hapart, hchildren⟩

theorem Parts.apart_entries {part : Nat → Set Nat} {entries : List (Text × Nat)}
    (hparts : Parts language limit document region node part)
    (hcell : document.cell node = .object entries) :
    entries.Pairwise fun a b => Apart limit (part a.2) (part b.2) := by
  have hapart := hparts.apart
  rw [hcell, Cell.children, List.pairwise_map] at hapart
  exact hapart

theorem settled_made (hsound : Sound limit document) (hlimit : limit ≤ node) :
    Settled language (document.value node) := by
  obtain ⟨value, hleaf⟩ | ⟨child, text, hcell, hleaf⟩ := hsound.made node hlimit
  · rw [hsound.value_leaf hleaf]
    obtain ⟨harr, hobj⟩ := hsound.scalar node value hleaf
    exact .scalar harr hobj
  · rw [hsound.value_object hcell, List.map_singleton, hsound.value_leaf hleaf]
    exact settled_nameOnly text

theorem proper_made (hsound : Sound limit document) (hlimit : limit ≤ node) :
    (document.value node).Proper := by
  obtain ⟨value, hleaf⟩ | ⟨child, text, hcell, hleaf⟩ := hsound.made node hlimit
  · obtain ⟨harr, hobj⟩ := hsound.scalar node value hleaf
    rw [hsound.value_leaf hleaf]
    cases value with
    | arr items => exact absurd rfl (harr items)
    | obj entries => exact absurd rfl (hobj entries)
    | _ => simp [Json.Proper]
  · rw [hsound.value_object hcell, List.map_singleton, hsound.value_leaf hleaf]
    simp [Json.Proper, Json.ProperEntries]

theorem laid_made (hsound : Sound limit document) (hlimit : limit ≤ node)
    (hnode : node < document.cells.size) :
    Laid language limit document (Set.Ici limit) node :=
  .rest (Set.Subset.refl _) (settled_made hsound hlimit) (hsound.within_made hlimit hnode)

theorem Leads.agree_of_apart (hleads : Leads language limit region' document document')
    (hapart : Apart limit region region') : Agree region document document' :=
  hleads.agree.mono fun _ hmem hmem' => hapart ⟨hmem, hmem'⟩

end

/-! ## Values along keys -/

theorem Settled.follow? (hsound : Sound limit document)
    (hsettled : Settled language (document.value node)) {keys : List Text} {last : Nat}
    (hlast : document.follow? keys node = some last) : Settled language (document.value last) := by
  induction keys generalizing node with
  | nil =>
      obtain rfl := Option.some.inj hlast
      exact hsettled
  | cons key keys ih =>
      obtain ⟨child, hchild, hlast⟩ := follow?_cons.mp hlast
      exact ih (hsettled.of_child (hsound.child_value (mem_children_of_child? hchild))).1 hlast

theorem proper_child (hsound : Sound limit document) (hproper : (document.value node).Proper)
    {child : Nat} (hchild : child ∈ (document.cell node).children) :
    (document.value child).Proper :=
  hproper.below (.single (hsound.child_value hchild))

theorem proper_follow? (hsound : Sound limit document) (hproper : (document.value node).Proper)
    {keys : List Text} {last : Nat} (hlast : document.follow? keys node = some last) :
    (document.value last).Proper := by
  induction keys generalizing node with
  | nil =>
      obtain rfl := Option.some.inj hlast
      exact hproper
  | cons key keys ih =>
      obtain ⟨child, hchild, hlast⟩ := follow?_cons.mp hlast
      have hbelow : Json.Below (document.value child) (document.value node) :=
        .single (hsound.child_value (mem_children_of_child? hchild))
      exact ih (hproper.below hbelow) hlast

theorem Laid.follow? {region : Set Nat} (hlaid : Laid language limit document region node)
    (hsound : Sound limit document) {keys : List Text} {last : Nat}
    (hlast : document.follow? keys node = some last) :
    Laid language limit document region last := by
  induction keys generalizing region node with
  | nil =>
      obtain rfl := Option.some.inj hlast
      exact hlaid
  | cons key keys ih =>
      cases hlaid with
      | rest hici hsettled hwithin =>
          exact .rest hici (hsettled.follow? hsound hlast) (hwithin.follow? hlast)
      | node part _ _ _ hinside _ hchildren =>
          obtain ⟨child, hchild, hlast⟩ := follow?_cons.mp hlast
          have hmem := mem_children_of_child? hchild
          exact (ih (hchildren child hmem) hlast).mono
            ((hinside child hmem).trans Set.inter_subset_left)

/-- All nodes along keys are for the language. -/
def Opens (language : Text) (document : Document) : List Text → Nat → Prop
  | [], _ => True
  | key :: keys, node => ∀ child, document.child? key node = some child →
      isAvailable language (document.value child) = .ok true ∧ Opens language document keys child

theorem opens_cons {key : Text} {keys : List Text} {child : Nat}
    (hchild : document.child? key node = some child) :
    Opens language document (key :: keys) node ↔
      isAvailable language (document.value child) = .ok true ∧
        Opens language document keys child := by
  constructor
  · exact fun hopens => hopens child hchild
  · intro hopens other hother
    obtain rfl := Option.some.inj (hchild.symm.trans hother)
    exact hopens

theorem Settled.opens (hsound : Sound limit document)
    (hsettled : Settled language (document.value node)) (keys : List Text) :
    Opens language document keys node := by
  induction keys generalizing node with
  | nil => trivial
  | cons key keys ih =>
      intro child hchild
      obtain ⟨hchild, havailable⟩ :=
        hsettled.of_child (hsound.child_value (mem_children_of_child? hchild))
      exact ⟨havailable, ih hchild⟩

theorem opens_agree {region : Set Nat} (hwithin : document.Within region node)
    (hsound : Sound limit document) (hsound' : Sound limit document')
    (hagree : Agree region document document') (keys : List Text) :
    Opens language document' keys node ↔ Opens language document keys node := by
  induction keys generalizing node with
  | nil => exact Iff.rfl
  | cons key keys ih =>
      unfold Opens
      rw [hwithin.child?_agree hagree]
      refine forall_congr' fun child => forall_congr' fun hchild => ?_
      have hinner := hwithin.child (mem_children_of_child? hchild)
      rw [hinner.value_agree hsound hsound' hagree, ih hinner]

/-! ## What becomes of nodes below a visited one -/

/-- What becomes of a node below a visited one: it is restricted if everything on
the way to it is for the language, and otherwise it is left as it was. -/
structure Ends (language : Text) (limit : Nat) (region : Set Nat) (opens : Prop)
    (document document' : Document) (last : Nat) : Prop where
  laid : Laid language limit document' region last
  restricted : opens → ∃ count,
    restrictAt language [] (document.value last) = .ok (document'.value last, count)
  untouched : ¬ opens → document'.value last = document.value last

/-- What becomes of the nodes that ordinary keys lead to. -/
def Tracks (language : Text) (limit : Nat) (region : Set Nat) (seen : Prop)
    (document document' : Document) (node : Nat) : Prop :=
  ∀ keys : List Text, (∀ key ∈ keys, Ordinary key) → ∀ last,
    document.follow? keys node = some last →
    Ends language limit region (seen ∧ Opens language document keys node) document document' last

section

variable {region region' : Set Nat} {seen : Prop} {document'' : Document}

theorem Tracks.after (htracks : Tracks language limit region seen document document' node)
    (hsound : Sound limit document') (hsound' : Sound limit document'')
    (hagree : Agree region document' document'') :
    Tracks language limit region seen document document'' node := by
  intro keys hkeys last hlast
  obtain ⟨hlaid, hrestricted, huntouched⟩ := htracks keys hkeys last hlast
  have hvalue := (hlaid.within hsound).value_agree hsound hsound' hagree
  refine ⟨hlaid.agree hsound hsound' hagree, ?_, ?_⟩ <;> rw [hvalue]
  · exact hrestricted
  · exact huntouched

theorem Tracks.before (htracks : Tracks language limit region' seen document' document'' node)
    (hwithin : document.Within region node) (hsound : Sound limit document)
    (hsound' : Sound limit document') (hagree : Agree region document document') :
    Tracks language limit region' seen document document'' node := by
  intro keys hkeys last hlast
  have hvalue := (hwithin.follow? hlast).value_agree hsound hsound' hagree
  obtain ⟨hlaid, hrestricted, huntouched⟩ :=
    htracks keys hkeys last ((hwithin.follow?_agree hagree keys).trans hlast)
  rw [opens_agree hwithin hsound hsound' hagree, hvalue] at hrestricted huntouched
  exact ⟨hlaid, hrestricted, huntouched⟩

theorem Tracks.mono (htracks : Tracks language limit region seen document document' node)
    (hregion : region ⊆ region') : Tracks language limit region' seen document document' node := by
  intro keys hkeys last hlast
  obtain ⟨hlaid, hrestricted, huntouched⟩ := htracks keys hkeys last hlast
  exact ⟨hlaid.mono hregion, hrestricted, huntouched⟩

/-- A node that is not visited is left as it was, and so is what it leads to. -/
theorem tracks_unseen (hlaid : Laid language limit document region node)
    (hsound : Sound limit document) (hseen : ¬ seen) :
    Tracks language limit region seen document document node := fun _ _ _ hlast =>
  ⟨hlaid.follow? hsound hlast, fun hopens => absurd hopens.1 hseen, fun _ => rfl⟩

/-- What a visit to a node does. -/
structure Visited (language : Text) (limit : Nat) (region : Set Nat) (node : Nat)
    (document document' : Document) (left : Json) : Prop where
  leads : Leads language limit region document document'
  value : document'.value node = left
  within : document'.Within region node
  tracks : Tracks language limit region True document document' node

/-- A step restricts laid out nodes up to some number as their values are restricted. -/
def Restricts (language : Text) (limit bound : Nat) (step : Nat → Restricting Unit) : Prop :=
  ∀ (document : Document) (node : Nat) (region : Set Nat) (dropped : Nat), Sound limit document →
    Laid language limit document region node → (document.value node).Proper →
    node < bound ∨ limit ≤ node →
    Mirrors document dropped (step node) (restrictAt language [] (document.value node))
      fun document' _ left => Visited language limit region node document document' left

/-- What it does to turn to a node, which is visited if it is for the language. -/
structure Turned (language : Text) (limit : Nat) (region : Set Nat) (node : Nat)
    (document document' : Document) (kept : Bool) (value? : Option Json) : Prop where
  leads : Leads language limit region document document'
  same : value? = none → document' = document
  kept : kept = value?.isSome
  rests : ∀ left ∈ value?, document'.value node = left ∧ Settled language left ∧
    document'.Within region node
  tracks : Tracks language limit region (isAvailable language (document.value node) = .ok true)
    document document' node

/-- Nothing of a settled node is lost when it is visited. -/
theorem visited_of_settled (hsound : Sound limit document)
    (hlaid : Laid language limit document region node) (hproper : (document.value node).Proper)
    (hsettled : Settled language (document.value node))
    (hleads : Leads language limit region document document') :
    Visited language limit region node document document' (document.value node) := by
  have hwithin := hlaid.within hsound
  obtain ⟨hvalue, hkept⟩ := hleads.keeps node hwithin.lt_size hsettled
  refine ⟨hleads, hvalue, hkept region hlaid.ici_subset hwithin, fun keys _ last hlast => ?_⟩
  have hlast' := hsettled.follow? hsound hlast
  have hsame := (hleads.keeps last (hwithin.follow? hlast).lt_size hlast').1
  refine ⟨(hlaid.follow? hsound hlast).keep hsound hlast' hleads, fun _ => ⟨0, ?_⟩, fun _ => hsame⟩
  rw [hsame, restrictAt_of_settled hlast' (proper_follow? hsound hproper hlast)]

theorem mirrors_keepNode {bound : Nat} {step : Nat → Restricting Unit}
    (hword : isEntryWord language = false) (hstep : Restricts language limit bound step)
    (hsound : Sound limit document) (hlaid : Laid language limit document region node)
    (hproper : (document.value node).Proper) (hdeep : node < bound ∨ limit ≤ node)
    (dropped : Nat) :
    Mirrors document dropped (keepNode language step node)
      (plainOutcome language (document.value node)) fun document' kept value? =>
        Turned language limit region node document document' kept value? := by
  have hvisit := hstep document node region dropped hsound hlaid hproper hdeep
  unfold Mirrors
  rw [run_keepNode, plainOutcome]
  cases havailable : isAvailable language (document.value node) with
  | error failure => rfl
  | ok available =>
      cases available with
      | false =>
          refine ⟨false, document, rfl, .refl hsound, fun _ => rfl, rfl, by simp, ?_⟩
          exact tracks_unseen hlaid hsound (by simp [havailable])
      | true =>
          cases hrestrict : restrictAt language [] (document.value node) with
          | error failure =>
              rw [hrestrict] at hvisit
              change (step node).run ⟨document, dropped⟩ >>= _ = _
              rw [show (step node).run ⟨document, dropped⟩ = .error failure from hvisit]
              rfl
          | ok left =>
              rw [hrestrict] at hvisit
              obtain ⟨_, document', hrun, hleads, hvalue, hwithin, htracks⟩ := hvisit
              refine ⟨true, document', ?_, hleads, by simp, rfl, fun value hvalue' => ?_, ?_⟩
              · change (step node).run ⟨document, dropped⟩ >>= _ = _
                rw [hrun]
                rfl
              · obtain rfl := Option.some.inj hvalue'
                exact ⟨hvalue, (settled_restrictAt hword hproper hrestrict).1, hwithin⟩
              · simpa [Tracks, havailable] using htracks

end

/-! ## Visits one after the other -/

section

variable {α β : Type} {bound : Nat} {part : α → Set Nat} {target : α → Nat} {things : List α}
  {place : α → Json → β}

/-- Things that stand for nodes laid out in parts beside each other. -/
structure Spread (language : Text) (limit bound : Nat) (part : α → Set Nat) (target : α → Nat)
    (document : Document) (things : List α) : Prop where
  laid : ∀ thing ∈ things, Laid language limit document (part thing) (target thing)
  proper : ∀ thing ∈ things, (document.value (target thing)).Proper
  deep : ∀ thing ∈ things, target thing < bound ∨ limit ≤ target thing
  apart : things.Pairwise fun a b => Apart limit (part a) (part b)

theorem Spread.sublist {fewer : List α}
    (hspread : Spread language limit bound part target document things)
    (hfewer : fewer.Sublist things) : Spread language limit bound part target document fewer where
  laid thing hthing := hspread.laid thing (hfewer.subset hthing)
  proper thing hthing := hspread.proper thing (hfewer.subset hthing)
  deep thing hthing := hspread.deep thing (hfewer.subset hthing)
  apart := hspread.apart.sublist hfewer

/-- What is spread stays so when a region apart from it is changed. -/
theorem Spread.agree (hspread : Spread language limit bound part target document things)
    (hsound : Sound limit document) (hsound' : Sound limit document')
    (hagree : ∀ thing ∈ things, Agree (part thing) document document') :
    Spread language limit bound part target document' things where
  laid thing hthing := (hspread.laid thing hthing).agree hsound hsound' (hagree thing hthing)
  proper thing hthing := by
    rw [((hspread.laid thing hthing).within hsound).value_agree hsound hsound'
      (hagree thing hthing)]
    exact hspread.proper thing hthing
  deep := hspread.deep
  apart := hspread.apart

/-- What becomes of the things, by their values. -/
def plainOutcomes (language : Text) (place : α → Json → β) (target : α → Nat)
    (document : Document) (things : List α) : List ((Json → β) × Outcome) :=
  things.map fun thing => (place thing, plainOutcome language (document.value (target thing)))

theorem Spread.plainOutcomes_agree
    (hspread : Spread language limit bound part target document things)
    (hsound : Sound limit document) (hsound' : Sound limit document')
    (hagree : ∀ thing ∈ things, Agree (part thing) document document') :
    plainOutcomes language place target document' things =
      plainOutcomes language place target document things := by
  refine List.map_congr_left fun thing hthing => ?_
  have hwithin := (hspread.laid thing hthing).within hsound
  rw [hwithin.value_agree hsound hsound' (hagree thing hthing)]

/-- What it does to restrict things one after the other, where some of them are
tracked. -/
structure Gathered (language : Text) (limit : Nat) (part : α → Set Nat) (target : α → Nat)
    (tracked : α → Prop) (document document' : Document) (things kept : List α) : Prop where
  leads : ∀ region, (∀ thing ∈ things, part thing ⊆ region) →
    Leads language limit region document document'
  sublist : kept.Sublist things
  rests : ∀ thing ∈ kept, Settled language (document'.value (target thing)) ∧
    document'.Within (part thing) (target thing)
  tracks : ∀ thing ∈ things, tracked thing →
    Tracks language limit (part thing)
      (isAvailable language (document.value (target thing)) = .ok true)
      document document' (target thing)

theorem Gathered.sound {tracked : α → Prop} {kept : List α}
    (hgathered : Gathered language limit part target tracked document document' things kept) :
    Sound limit document' :=
  (hgathered.leads Set.univ fun _ _ => Set.subset_univ _).sound

/-- What is beside all things is left as it was when they are gathered. -/
theorem Gathered.agree {tracked : α → Prop} {kept : List α} {region : Set Nat}
    (hgathered : Gathered language limit part target tracked document document' things kept)
    (hapart : ∀ thing ∈ things, Apart limit region (part thing)) :
    Agree region document document' := by
  have hleads := hgathered.leads {other | ∃ thing ∈ things, other ∈ part thing}
    fun thing hthing _ hmem => ⟨thing, hthing, hmem⟩
  refine hleads.agree_of_apart ?_
  rintro other ⟨hmem, thing, hthing, hmem'⟩
  exact hapart thing hthing ⟨hmem, hmem'⟩

/-- The first thing is turned to, and then the others are gathered. -/
theorem Gathered.cons {thing : α} {rest kept : List α} {here : Bool} {value? : Option Json}
    {middle : Document} {tracked : α → Prop}
    (hspread : Spread language limit bound part target document (thing :: rest))
    (hsound : Sound limit document)
    (hturned : Turned language limit (part thing) (target thing) document middle here value?)
    (hgathered : Gathered language limit part target tracked middle document' rest kept) :
    Gathered language limit part target tracked document document' (thing :: rest)
        (if here then thing :: kept else kept) ∧
      ∀ value ∈ value?, document'.value (target thing) = value := by
  obtain ⟨hapart, -⟩ := List.pairwise_cons.mp hspread.apart
  have hsound' := hturned.leads.sound
  have hagree : Agree (part thing) middle document' := hgathered.agree hapart
  have hvalue : ∀ value ∈ value?, document'.value (target thing) = value := by
    intro value hmem
    obtain ⟨hsame, -, hwithin⟩ := hturned.rests value hmem
    rw [hwithin.value_agree hsound' hgathered.sound hagree, hsame]
  refine ⟨⟨fun region hregion => ?_, sublist_kept here thing hgathered.sublist,
    fun other hother => ?_, fun other hother htracked => ?_⟩, hvalue⟩
  · obtain ⟨hfirst, hrest⟩ := List.forall_mem_cons.mp hregion
    exact (hturned.leads.mono hfirst).trans (hgathered.leads region hrest)
  · obtain hkept | ⟨rfl, rfl⟩ := mem_of_mem_kept hother
    · exact hgathered.rests other hkept
    · obtain ⟨value, rfl⟩ := Option.isSome_iff_exists.mp hturned.kept.symm
      obtain ⟨-, hsettled, hwithin⟩ := hturned.rests value rfl
      exact ⟨hvalue value rfl ▸ hsettled, hwithin.agree hwithin hagree⟩
  · rcases List.mem_cons.mp hother with rfl | hrest
    · exact hturned.tracks.after hsound' hgathered.sound hagree
    · have hwithin := (hspread.laid other hother).within hsound
      have hbefore : Agree (part other) document middle :=
        hturned.leads.agree_of_apart (hapart other hrest).symm
      have htracks := hgathered.tracks other hrest htracked
      rw [hwithin.value_agree hsound hsound' hbefore] at htracks
      exact htracks.before hwithin hsound hsound' hbefore

/-- Nodes in parts beside each other are restricted as their values are. -/
theorem mirrors_keepAll {step : Nat → Restricting Unit} (hword : isEntryWord language = false)
    (hstep : Restricts language limit bound step) (place : α → Json → β)
    (hspread : Spread language limit bound part target document things)
    (hsound : Sound limit document) (dropped : Nat) :
    Mirrors document dropped (keepAll language step target things)
      (gather (plainOutcomes language place target document things)) fun document' kept left =>
        Gathered language limit part target (fun _ => True) document document' things kept ∧
          left = kept.map fun thing => place thing (document'.value (target thing)) := by
  induction things generalizing document dropped with
  | nil =>
      refine ⟨[], document, rfl, ⟨fun _ _ => .refl hsound, List.Sublist.refl _, ?_, ?_⟩, rfl⟩ <;>
        simp
  | cons thing rest ih =>
      have hlaid := hspread.laid thing List.mem_cons_self
      have hturn := mirrors_keepNode hword hstep hsound hlaid
        (hspread.proper thing List.mem_cons_self) (hspread.deep thing List.mem_cons_self) dropped
      rw [keepAll_cons, plainOutcomes, List.map_cons, gather_cons]
      refine hturn.bind fun middle here value? count _ hturned => ?_
      obtain ⟨hapart, -⟩ := List.pairwise_cons.mp hspread.apart
      have hrest := hspread.sublist (List.sublist_cons_self thing rest)
      have hagree : ∀ other ∈ rest, Agree (part other) document middle :=
        fun other hother => hturned.leads.agree_of_apart (hapart other hother).symm
      have hsound' := hturned.leads.sound
      have hothers := ih (hrest.agree hsound hsound' hagree) hsound' (dropped + count)
      rw [hrest.plainOutcomes_agree hsound hsound' hagree] at hothers
      refine hothers.map fun document' kept left ⟨hgathered, hleft⟩ => ?_
      obtain ⟨hall, hvalue⟩ := hgathered.cons hspread hsound hturned
      refine ⟨hall, ?_⟩
      have hkept := hturned.kept
      cases value? with
      | none => simp [hkept, hleft]
      | some value => simp [hkept, hleft, hvalue value rfl]

/-- They are restricted so also when something apart from them was changed. -/
theorem mirrors_keepAll_agree {step : Nat → Restricting Unit}
    (hword : isEntryWord language = false) (hstep : Restricts language limit bound step)
    (place : α → Json → β)
    (hspread : Spread language limit bound part target document things)
    (hsound : Sound limit document) (hsound' : Sound limit document')
    (hagree : ∀ thing ∈ things, Agree (part thing) document document') (dropped : Nat) :
    Mirrors document' dropped (keepAll language step target things)
      (gather (plainOutcomes language place target document things)) fun document'' kept left =>
        Gathered language limit part target (fun _ => True) document' document'' things kept ∧
          left = kept.map fun thing => place thing (document''.value (target thing)) := by
  rw [← hspread.plainOutcomes_agree hsound hsound' hagree]
  exact mirrors_keepAll hword hstep place (hspread.agree hsound hsound' hagree) hsound' dropped

end

end Availability
end ApiBindings
