import ApiBindings.Proofs.Schema.Visits
/-!
# A type in two places

The parts of the nodes in a node overlap in one place only, where the type of the
node was found below what it says about languages.  Then the type is restricted in
its two places, in the order of the entries.  If that is first as the type, the
entry for the languages is left with a part that is settled, and what was dropped in
it is missing from its count.  Otherwise the type is settled by then, or it was not
reached, because something above it was dropped.
-/

namespace ApiBindings
namespace Availability

open Document

variable {language : Text} {limit bound node : Nat} {document document' : Document}
  {part : Nat → Set Nat} {region : Set Nat} {step : Nat → Restricting Unit}

/-! ## What was visited ahead -/

/-- A document in which something below a node has been restricted ahead. -/
structure Lightened (language : Text) (limit : Nat) (region : Set Nat) (node count : Nat)
    (document document' : Document) : Prop where
  leads : Leads language limit region document document'
  laid : Laid language limit document' region node
  sheds : Sheds language count (document.value node) (document'.value node)

/-- The things beside a lightened one keep their values, and all stay laid out. -/
theorem Lightened.beside {α : Type} {part : α → Set Nat} {target : α → Nat} {front back : List α}
    {thing : α} {count : Nat}
    (hlight : Lightened language limit (part thing) (target thing) count document document')
    (hsound : Sound limit document)
    (hapart : (front ++ thing :: back).Pairwise fun a b => Apart limit (part a) (part b))
    (hlaid : ∀ other ∈ front ++ thing :: back,
      Laid language limit document (part other) (target other)) :
    (∀ other ∈ front ++ back, document'.value (target other) = document.value (target other)) ∧
      ∀ other ∈ front ++ thing :: back,
        Laid language limit document' (part other) (target other) := by
  have hsound' := hlight.leads.sound
  have hothers := (pairwise_apart_middle.mp hapart).1
  have hagree : ∀ other ∈ front ++ back, Agree (part other) document document' :=
    fun other hother => hlight.leads.agree_of_apart (hothers other hother).symm
  constructor
  · intro other hother
    have hmem := List.perm_middle.mem_iff.mpr (List.mem_cons_of_mem thing hother)
    exact ((hlaid other hmem).within hsound).value_agree hsound hsound' (hagree other hother)
  · intro other hother
    rcases List.mem_cons.mp (List.perm_middle.mem_iff.mp hother) with rfl | hrest
    · exact hlight.laid
    · exact (hlaid other hother).agree hsound hsound' (hagree other hrest)

theorem map_value_congr {entries : List (Text × Nat)} {value value' : Nat → Json}
    (hsame : ∀ entry ∈ entries, value' entry.2 = value entry.2) :
    (entries.map fun entry => (entry.1, value' entry.2)) =
      entries.map fun entry => (entry.1, value entry.2) :=
  List.map_congr_left fun entry hentry => by rw [hsame entry hentry]

/-- A node is lightened by what was dropped ahead from a node in it, if that is kept. -/
theorem Lightened.up {key : Text} {child count seen : Nat} {entries : List (Text × Nat)}
    (hlight : Lightened language limit (part child) child count document document')
    (hsound : Sound limit document) (hcell : document.cell node = .object entries)
    (hparts : Parts language limit document region node part) (hkey : Ordinary key)
    (hfound : Text.find? key entries = some child)
    (hseen : isAvailable language (document.value child) = .ok true → seen = count)
    (hunseen : isAvailable language (document.value child) ≠ .ok true → seen = 0) :
    Lightened language limit region node seen document document' := by
  have hmem := mem_children_of_mem hcell (Json.mem_of_find? hfound)
  obtain ⟨first, second, rfl⟩ := List.append_of_mem (Json.mem_of_find? hfound)
  have hkept : document'.cell node = document.cell node :=
    hlight.leads.agree.2 node (Nat.lt_of_lt_of_le hparts.start hsound.bound) fun hinside =>
      absurd rfl (hparts.inside child hmem hinside).2
  -- the other entries stand beside the one that was visited
  obtain ⟨hvalues, hlaid⟩ := Lightened.beside hlight hsound (hparts.apart_entries hcell)
    fun entry hentry => hparts.laid entry.2 (mem_children_of_mem hcell hentry)
  refine ⟨hlight.leads.mono ((hparts.inside child hmem).trans Set.inter_subset_left), ?_, ?_⟩
  · refine .node part hparts.start hparts.made hparts.mem ?_ ?_ ?_ <;> rw [hkept]
    · exact hparts.inside
    · exact hparts.apart
    · rw [hcell]
      exact List.forall_mem_map.mpr hlaid
  · rw [hsound.value_object hcell, hlight.leads.sound.value_object (hkept.trans hcell)]
    simp only [List.map_append, List.map_cons]
    rw [map_value_congr fun entry hentry => hvalues entry (List.mem_append_left second hentry),
      map_value_congr fun entry hentry => hvalues entry (List.mem_append_right first hentry)]
    exact hlight.sheds.entry hkey hseen hunseen _ _

/-- A node is lightened by a visit to one below it, if what is on the way to that is
for the language. -/
theorem exists_lightened (hword : isEntryWord language = false) {keys : List Text}
    {last count : Nat} (hsound : Sound limit document)
    (hlaid : Laid language limit document region node) (hproper : (document.value node).Proper)
    (hkeys : ∀ key ∈ keys, Ordinary key) (hlast : document.follow? keys node = some last)
    (hvisit : ∀ region, Laid language limit document region last →
      Leads language limit region document document' ∧ document'.Within region last)
    (havailable : isAvailable language (document.value last) = .ok true)
    (hrun : restrictAt language [] (document.value last) = .ok (document'.value last, count)) :
    ∃ shed, Lightened language limit region node shed document document' ∧
      (Opens language document keys node → shed = count) ∧
      (¬ Opens language document keys node → shed = 0) := by
  induction keys generalizing region node with
  | nil =>
      obtain rfl := Option.some.inj hlast
      obtain ⟨hleads, hwithin⟩ := hvisit region hlaid
      obtain ⟨hsettled, hproper', hkept⟩ := settled_restrictAt hword hproper hrun
      refine ⟨count, ⟨hleads, .rest hlaid.ici_subset hsettled hwithin, ?_, ?_, fun _ => hproper'⟩,
        fun _ => rfl, fun hclosed => absurd trivial hclosed⟩
      · rw [havailable, hkept havailable]
      · rw [hrun, restrictAt_of_settled hsettled hproper']
        simp [adding, Except.map]
  | cons key keys ih =>
      by_cases hsettled : Settled language (document.value node)
      · have hlast' := hsettled.follow? hsound hlast
        have hleads := (hvisit region (hlaid.follow? hsound hlast)).1
        have hvalue := (hleads.keeps node (hlaid.within hsound).lt_size hsettled).1
        rw [restrictAt_of_settled hlast' (proper_follow? hsound hproper hlast)] at hrun
        obtain ⟨-, rfl⟩ := Prod.ext_iff.mp (Except.ok.inj hrun)
        refine ⟨0, ⟨hleads, hlaid.keep hsound hsettled hleads, ?_⟩, fun _ => rfl, fun _ => rfl⟩
        rw [hvalue]
        exact .refl _
      · obtain ⟨part, hparts⟩ := hlaid.exists_parts hsettled
        obtain ⟨child, hchild, hlast⟩ := follow?_cons.mp hlast
        obtain ⟨entries, hcell, hfound⟩ := child?_eq_some.mp hchild
        obtain ⟨hkey, hkeys⟩ := List.forall_mem_cons.mp hkeys
        have hmem := mem_children_of_child? hchild
        obtain ⟨shed, hlight, hopen, hclosed⟩ :=
          ih (hparts.laid child hmem) (proper_child hsound hproper hmem) hkeys hlast
        rw [opens_cons hchild]
        by_cases hseen : isAvailable language (document.value child) = .ok true
        · have hup := hlight.up hsound hcell hparts hkey hfound (fun _ => rfl)
            fun hunseen => absurd hseen hunseen
          exact ⟨shed, hup, fun hopens => hopen hopens.2,
            fun hopens => hclosed fun h => hopens ⟨hseen, h⟩⟩
        · have hup := hlight.up hsound hcell hparts hkey hfound (fun h => absurd h hseen)
            fun _ => rfl
          exact ⟨0, hup, fun hopens => absurd hopens.1 hseen, fun _ => rfl⟩

/-! ## A type that is shared -/

/-- What becomes of the entries of a node, by the values of the nodes in it. -/
def entryOutcomes (language : Text) (document : Document) (entries : List (Text × Nat)) :
    List ((Json → Text × Json) × Outcome) :=
  plainOutcomes language (fun entry => Prod.mk entry.1) Prod.snd document entries

theorem entryOutcomes_append (first second : List (Text × Nat)) :
    entryOutcomes language document (first ++ second) =
      entryOutcomes language document first ++ entryOutcomes language document second :=
  List.map_append

theorem entryOutcomes_cons (entry : Text × Nat) (rest : List (Text × Nat)) :
    entryOutcomes language document (entry :: rest) =
      (Prod.mk entry.1, plainOutcome language (document.value entry.2)) ::
        entryOutcomes language document rest :=
  rfl

/-- Entries whose nodes are laid out in parts beside each other. -/
def SpreadEntries (language : Text) (limit bound : Nat) (part : Nat → Set Nat)
    (document : Document) (entries : List (Text × Nat)) : Prop :=
  Spread language limit bound (fun entry => part entry.2) Prod.snd document entries

/-- What it does to restrict entries, all of which are tracked. -/
def GatheredEntries (language : Text) (limit : Nat) (part : Nat → Set Nat)
    (document document' : Document) (entries kept : List (Text × Nat)) : Prop :=
  Gathered language limit (fun entry => part entry.2) Prod.snd (fun _ => True) document document'
    entries kept

theorem SpreadEntries.apart_langs {entries : List (Text × Nat)} {entry : Text × Nat} {langs : Nat}
    (hspread : SpreadEntries language limit bound part document entries)
    (hlangs : (("langs" : Text), langs) ∈ entries) (hentry : entry ∈ entries)
    (hkey : Ordinary entry.1) : Apart limit (part entry.2) (part langs) := by
  obtain ⟨front, back, rfl⟩ := List.append_of_mem hlangs
  obtain ⟨hothers, -⟩ := pairwise_apart_middle.mp hspread.apart
  rcases List.mem_cons.mp (List.perm_middle.mem_iff.mp hentry) with rfl | hrest
  · exact absurd rfl hkey.2.2
  · exact (hothers entry hrest).symm

/-- Where the entry for the languages has been lightened, the entries are still spread,
and what was dropped ahead is missing from what is gathered of them. -/
theorem SpreadEntries.lightened {shed seen langs : Nat} {entries : List (Text × Nat)}
    (hspread : SpreadEntries language limit bound part document entries)
    (hsound : Sound limit document) (hlangs : (("langs" : Text), langs) ∈ entries)
    (hlight : Lightened language limit (part langs) langs shed document document')
    (hseen : isAvailable language (document.value langs) = .ok true → seen = shed)
    (hunseen : isAvailable language (document.value langs) ≠ .ok true → seen = 0) :
    SpreadEntries language limit bound part document' entries ∧
      gather (entryOutcomes language document entries) =
        adding seen (gather (entryOutcomes language document' entries)) := by
  obtain ⟨front, back, rfl⟩ := List.append_of_mem hlangs
  obtain ⟨hvalues, hlaid⟩ := Lightened.beside hlight hsound hspread.apart hspread.laid
  constructor
  · refine ⟨hlaid, fun entry hentry => ?_, hspread.deep, hspread.apart⟩
    rcases List.mem_cons.mp (List.perm_middle.mem_iff.mp hentry) with rfl | hrest
    · exact hlight.sheds.proper (hspread.proper _ hentry)
    · rw [hvalues entry hrest]
      exact hspread.proper entry hentry
  · have hsame : ∀ entries, (∀ entry ∈ entries, entry ∈ front ++ back) →
        entryOutcomes language document' entries = entryOutcomes language document entries :=
      fun entries hentries => List.map_congr_left fun entry hentry => by
        rw [hvalues entry (hentries entry hentry)]
    simp only [entryOutcomes_append, entryOutcomes_cons]
    rw [hsame front fun entry => List.mem_append_left back,
      hsame back fun entry => List.mem_append_right front]
    exact gather_adding (hlight.sheds.plainOutcome_eq hseen hunseen) _ _

theorem ordinary_types (hword : isEntryWord language = false) :
    ∀ key ∈ [("types" : Text), language], Ordinary key := by
  have hlanguage : (language ≠ "name" ∧ language ≠ "type") ∧ language ≠ "langs" := by
    simpa [isEntryWord] using hword
  simp only [List.mem_cons, List.not_mem_nil, or_false, forall_eq_or_imp, forall_eq]
  exact ⟨by unfold Ordinary; decide, hlanguage.1.1, hlanguage.1.2, hlanguage.2⟩

/-- A node is found below what is said about languages among some entries, and whether
restricting the entries gets to it. -/
structure Shares (language : Text) (limit bound : Nat) (part : Nat → Set Nat)
    (document : Document) (entries : List (Text × Nat)) (langs type : Nat) (reaches : Bool) :
    Prop where
  spread : SpreadEntries language limit bound part document entries
  mem : (("langs" : Text), langs) ∈ entries
  follow : document.follow? ["types", language] langs = some type
  deep : type < bound ∨ limit ≤ type
  reached : reaches = true ∧ isAvailable language (document.value type) = .ok true ↔
    isAvailable language (document.value langs) = .ok true ∧
      Opens language document ["types", language] langs

section

variable {entries first second : List (Text × Nat)} {langs type : Nat} {reaches : Bool}

theorem Shares.proper
    (hshares : Shares language limit bound part document entries langs type reaches)
    (hsound : Sound limit document) : (document.value type).Proper :=
  proper_follow? hsound (hshares.spread.proper _ hshares.mem) hshares.follow

theorem Shares.of_append
    (hshares : Shares language limit bound part document (first ++ second) langs type reaches)
    (hlangs : (("langs" : Text), langs) ∈ second) :
    Shares language limit bound part document second langs type reaches where
  spread := hshares.spread.sublist (List.sublist_append_right first second)
  mem := hlangs
  follow := hshares.follow
  deep := hshares.deep
  reached := hshares.reached

theorem Shares.agree
    (hshares : Shares language limit bound part document entries langs type reaches)
    (hsound : Sound limit document) (hsound' : Sound limit document')
    (hagree : ∀ entry ∈ entries, Agree (part entry.2) document document') :
    Shares language limit bound part document' entries langs type reaches ∧
      document'.value type = document.value type := by
  have hlangs := hagree _ hshares.mem
  have hwithin := (hshares.spread.laid _ hshares.mem).within hsound
  have hvalue : document'.value type = document.value type :=
    (hwithin.follow? hshares.follow).value_agree hsound hsound' hlangs
  refine ⟨⟨hshares.spread.agree hsound hsound' hagree, hshares.mem, ?_, hshares.deep, ?_⟩, hvalue⟩
  · rw [hwithin.follow?_agree hlangs, hshares.follow]
  · rw [hvalue, hwithin.value_agree hsound hsound' hlangs,
      opens_agree hwithin hsound hsound' hlangs]
    exact hshares.reached

/-- A shared type counts once where it was turned to below the languages before. -/
theorem Shares.countedOnce_eq
    (hshares : Shares language limit bound part document entries langs type reaches)
    (hword : isEntryWord language = false) (hsound : Sound limit document)
    (hends : Ends language limit region (isAvailable language (document.value langs) = .ok true ∧
      Opens language document ["types", language] langs) document document' type) :
    countedOnce reaches (plainOutcome language (document.value type)) =
        plainOutcome language (document'.value type) ∧
      (document'.value type).Proper := by
  have hproper := hshares.proper hsound
  by_cases hopens : isAvailable language (document.value langs) = .ok true ∧
      Opens language document ["types", language] langs
  · obtain ⟨rfl, havailable⟩ := hshares.reached.mpr hopens
    obtain ⟨count, hrun⟩ := hends.restricted hopens
    obtain ⟨hsettled, hproper', hkept⟩ := settled_restrictAt hword hproper hrun
    refine ⟨?_, hproper'⟩
    rw [plainOutcome_ok havailable hrun,
      plainOutcome_eq_self (hkept havailable) (restrictAt_of_settled hsettled hproper')]
    rfl
  · rw [hends.untouched hopens]
    refine ⟨?_, hproper⟩
    by_cases havailable : isAvailable language (document.value type) = .ok true
    · obtain rfl : reaches = false :=
        Bool.eq_false_iff.mpr fun hreach => hopens (hshares.reached.mp ⟨hreach, havailable⟩)
      exact countedOnce_false _
    · exact countedOnce_of_unavailable reaches havailable

/-- Where the type is kept before its entry for the languages is turned to, what was
dropped in the type is missing there, if that is reached. -/
theorem Shares.lightened {left : Json} {count : Nat}
    (hshares : Shares language limit bound part document entries langs type reaches)
    (hword : isEntryWord language = false) (hsound : Sound limit document)
    (hplain : plainOutcome language (document.value type) = .ok (some left, count))
    (hturned : ∀ region, Laid language limit document region type →
      Turned language limit region type document document' true (some left)) :
    SpreadEntries language limit bound part document' entries ∧
      gather (entryOutcomes language document entries) =
        adding (if reaches then count else 0)
          (gather (entryOutcomes language document' entries)) := by
  obtain ⟨havailable, hrun⟩ := plainOutcome_some hplain
  have hlangs := hshares.spread.laid _ hshares.mem
  have hvalue := ((hturned _ (hlangs.follow? hsound hshares.follow)).rests left rfl).1
  have hvisit : ∀ region, Laid language limit document region type →
      Leads language limit region document document' ∧ document'.Within region type := by
    intro region hlaid
    have hturn := hturned region hlaid
    exact ⟨hturn.leads, (hturn.rests left rfl).2.2⟩
  obtain ⟨shed, hlight, hopen, hclosed⟩ := exists_lightened hword hsound hlangs
    (hshares.spread.proper _ hshares.mem) (ordinary_types hword) hshares.follow hvisit havailable
    (hvalue ▸ hrun)
  have hreached : reaches = true ↔ isAvailable language (document.value langs) = .ok true ∧
      Opens language document ["types", language] langs := by
    rw [← hshares.reached]
    simp [havailable]
  refine hshares.spread.lightened hsound hshares.mem hlight (fun hseen => ?_) fun hunseen => ?_
  · by_cases hopens : Opens language document ["types", language] langs
    · rw [if_pos (hreached.mpr ⟨hseen, hopens⟩), hopen hopens]
    · rw [if_neg fun hreach => hopens (hreached.mp hreach).2, hclosed hopens]
  · rw [if_neg fun hreach => hunseen (hreached.mp hreach).1]

/-- What restricting a shared type and the entries behind it does. -/
def Around (language : Text) (limit : Nat) (part : Nat → Set Nat) (langs type : Nat)
    (before : Document) (second : List (Text × Nat)) (document' : Document)
    (others : List (Text × Nat)) (left : List (Text × Json)) : Prop :=
  ∃ here value? after keptSecond,
    Turned language limit (part langs) type before after here value? ∧
    GatheredEntries language limit part after document' second keptSecond ∧
    others = (if here then (("type" : Text), type) :: keptSecond else keptSecond) ∧
    left = (value?.map (Prod.mk ("type" : Text))).toList ++
      keptSecond.map fun entry => (entry.1, document'.value entry.2)

/-- A shared type is restricted as its value is where what is said about languages
comes ahead of it: by then it is settled, or it was not reached. -/
theorem mirrors_langsFirst (hword : isEntryWord language = false)
    (hstep : Restricts language limit bound step) (hsound : Sound limit document)
    (hshares : Shares language limit bound part document (first ++ second) langs type reaches)
    (hlangs : (("langs" : Text), langs) ∈ first) {before : Document}
    {keptFirst : List (Text × Nat)}
    (hfirst : GatheredEntries language limit part document before first keptFirst)
    (dropped : Nat) :
    Mirrors before dropped (keepAll language step Prod.snd ((("type" : Text), type) :: second))
      (gather ((Prod.mk ("type" : Text),
        countedOnce reaches (plainOutcome language (document.value type))) ::
          entryOutcomes language document second))
      (Around language limit part langs type before second) := by
  have hends := hfirst.tracks _ hlangs trivial _ (ordinary_types hword) type hshares.follow
  obtain ⟨houtcome, hproper⟩ := hshares.countedOnce_eq hword hsound hends
  obtain ⟨-, -, hapart⟩ := List.pairwise_append.mp hshares.spread.apart
  rw [keepAll_cons, gather_cons, houtcome]
  have hturn := mirrors_keepNode hword hstep hfirst.sound hends.laid hproper hshares.deep dropped
  refine hturn.bind fun after here value? count _ hturned => ?_
  have hagree : ∀ entry ∈ second, Agree (part entry.2) document after := by
    intro entry hentry
    have hbefore : Agree (part entry.2) document before :=
      hfirst.agree fun other hother => (hapart other hother entry hentry).symm
    exact hbefore.trans (hturned.leads.agree_of_apart (hapart _ hlangs entry hentry).symm)
  have hsecond := mirrors_keepAll_agree hword hstep (fun entry : Text × Nat => Prod.mk entry.1)
    (hshares.spread.sublist (List.sublist_append_right first second)) hsound hturned.leads.sound
    hagree (dropped + count)
  refine hsecond.map fun document' keptSecond left hboth => ?_
  exact ⟨here, value?, after, keptSecond, hturned, hboth.1, rfl, by rw [hboth.2]⟩

/-- A shared type is restricted as its value is where it comes ahead of what is said
about languages: there all that is missing is what was dropped in it. -/
theorem mirrors_typeFirst (hword : isEntryWord language = false)
    (hstep : Restricts language limit bound step) (hsound : Sound limit document)
    (hshares : Shares language limit bound part document second langs type reaches)
    (dropped : Nat) :
    Mirrors document dropped (keepAll language step Prod.snd ((("type" : Text), type) :: second))
      (gather ((Prod.mk ("type" : Text),
        countedOnce reaches (plainOutcome language (document.value type))) ::
          entryOutcomes language document second))
      (Around language limit part langs type document second) := by
  have hlaid := (hshares.spread.laid _ hshares.mem).follow? hsound hshares.follow
  have hturn := fun region (hlaid : Laid language limit document region type) =>
    mirrors_keepNode hword hstep hsound hlaid (hshares.proper hsound) hshares.deep dropped
  rw [keepAll_cons]
  cases hplain : plainOutcome language (document.value type) with
  | error failure =>
      have hfailed := hturn _ hlaid
      rw [hplain] at hfailed
      exact run_bind_of_error hfailed
  | ok result =>
      obtain ⟨value?, count⟩ := result
      rw [hplain] at hturn
      obtain ⟨here, after, hrun, hturned⟩ := hturn _ hlaid
      have haround : ∀ document' keptSecond left,
          GatheredEntries language limit part after document' second keptSecond ∧
            left = keptSecond.map (fun entry => (entry.1, document'.value entry.2)) →
          Around language limit part langs type document second document'
            (if here then (("type" : Text), type) :: keptSecond else keptSecond)
            ((value?.map (Prod.mk ("type" : Text))).toList ++ left) := by
        intro document' keptSecond left hboth
        exact ⟨here, value?, after, keptSecond, hturned, hboth.1, rfl, by rw [hboth.2]⟩
      cases value? with
      | none =>
          obtain rfl := hturned.same rfl
          have hrest := mirrors_keepAll hword hstep (fun entry : Text × Nat => Prod.mk entry.1)
            hshares.spread hsound (dropped + count)
          rw [gather_countedOnce (adding_zero _).symm rfl]
          exact .after hrun (hrest.map haround)
      | some left =>
          obtain rfl : here = true := hturned.kept
          obtain ⟨hspread, hmissing⟩ := hshares.lightened hword hsound hplain
            fun region hlaid => (hturn region hlaid).of_run hrun
          have hrest := mirrors_keepAll hword hstep (fun entry : Text × Nat => Prod.mk entry.1)
            hspread hturned.leads.sound (dropped + count)
          rw [gather_countedOnce hmissing (by simp)]
          exact .after hrun (hrest.map haround)

/-- What restricting the entries of a node does in a region, and what is left of them. -/
structure Leaves (language : Text) (limit : Nat) (region : Set Nat) (document : Document)
    (entries : List (Text × Nat)) (document' : Document) (kept : List (Text × Nat))
    (left : List (Text × Json)) : Prop where
  gathered : Gathered language limit (fun _ => region) Prod.snd (fun entry => Ordinary entry.1)
    document document' entries kept
  left : left = kept.map fun entry => (entry.1, document'.value entry.2)

/-- Entries are gathered around a type that lies below another entry of theirs. -/
theorem Gathered.around {keptFirst keptSecond : List (Text × Nat)} {here : Bool}
    {value? : Option Json} {before after : Document} (hsound : Sound limit document)
    (hspread : SpreadEntries language limit bound part document (first ++ second))
    (hlangs : (("langs" : Text), langs) ∈ first ++ second) (hici : Set.Ici limit ⊆ region)
    (hregion : ∀ entry ∈ first ++ second, part entry.2 ⊆ region)
    (hfirst : GatheredEntries language limit part document before first keptFirst)
    (hturned : Turned language limit (part langs) type before after here value?)
    (hsecond : GatheredEntries language limit part after document' second keptSecond) :
    Gathered language limit (fun _ => region) Prod.snd (fun entry => Ordinary entry.1) document
        document' (first ++ (("type" : Text), type) :: second)
        (keptFirst ++ if here then (("type" : Text), type) :: keptSecond else keptSecond) ∧
      (∀ entry ∈ keptFirst, document'.value entry.2 = before.value entry.2) ∧
      ∀ value ∈ value?, document'.value type = value := by
  have hpartFirst : ∀ entry ∈ first, part entry.2 ⊆ region := fun entry hentry =>
    hregion entry (List.mem_append_left second hentry)
  have hpartSecond : ∀ entry ∈ second, part entry.2 ⊆ region := fun entry hentry =>
    hregion entry (List.mem_append_right first hentry)
  have hleadsFirst := hfirst.leads region hpartFirst
  have hleadsType := hturned.leads.mono (hregion _ hlangs)
  have hleadsSecond := hsecond.leads region hpartSecond
  have hrestsFirst : ∀ entry ∈ keptFirst, document'.value entry.2 = before.value entry.2 ∧
      Settled language (document'.value entry.2) ∧ document'.Within region entry.2 := by
    intro entry hentry
    obtain ⟨hsettled, hwithin⟩ := hfirst.rests entry hentry
    exact (hleadsType.trans hleadsSecond).rests hici hsettled
      (hwithin.mono (hpartFirst entry (hfirst.sublist.subset hentry)))
  have hrestsType : ∀ value ∈ value?, document'.value type = value ∧
      Settled language (document'.value type) ∧ document'.Within region type := by
    intro value hvalue
    obtain ⟨rfl, hsettled, hwithin⟩ := hturned.rests value hvalue
    exact hleadsSecond.rests hici hsettled (hwithin.mono (hregion _ hlangs))
  refine ⟨⟨fun region' hregion' => ?_, hfirst.sublist.append (sublist_kept here _ hsecond.sublist),
    fun entry hentry => ?_, fun entry hentry hkey => ?_⟩,
    fun entry hentry => (hrestsFirst entry hentry).1,
    fun value hvalue => (hrestsType value hvalue).1⟩
  · have hsame : region ⊆ region' := hregion' (("type" : Text), type) (by simp)
    exact ((hleadsFirst.trans hleadsType).trans hleadsSecond).mono hsame
  · rcases List.mem_append.mp hentry with hentry | hentry
    · exact (hrestsFirst entry hentry).2
    · obtain hkept | ⟨rfl, rfl⟩ := mem_of_mem_kept hentry
      · obtain ⟨hsettled, hwithin⟩ := hsecond.rests entry hkept
        exact ⟨hsettled, hwithin.mono (hpartSecond entry (hsecond.sublist.subset hkept))⟩
      · obtain ⟨value, rfl⟩ := Option.isSome_iff_exists.mp hturned.kept.symm
        exact (hrestsType value rfl).2
  · have hmem : entry ∈ first ++ second := by
      rcases List.mem_cons.mp (List.perm_middle.mem_iff.mp hentry) with rfl | hrest
      · exact absurd rfl hkey.2.1
      · exact hrest
    obtain ⟨-, -, hapart⟩ := List.pairwise_append.mp hspread.apart
    have htype : Agree (part entry.2) before after :=
      hturned.leads.agree_of_apart (hspread.apart_langs hlangs hmem hkey)
    refine Tracks.mono ?_ (hregion entry hmem)
    rcases List.mem_append.mp hmem with hmemFirst | hmemSecond
    · have hafter : Agree (part entry.2) after document' := hsecond.agree (hapart entry hmemFirst)
      exact (hfirst.tracks entry hmemFirst trivial).after hfirst.sound hsecond.sound
        (htype.trans hafter)
    · have hbefore : Agree (part entry.2) document before :=
        hfirst.agree fun other hother => (hapart other hother entry hmemSecond).symm
      have hwithin := (hspread.laid entry hmem).within hsound
      have htracks := hsecond.tracks entry hmemSecond trivial
      rw [hwithin.value_agree hsound hturned.leads.sound (hbefore.trans htype)] at htracks
      exact htracks.before hwithin hsound hturned.leads.sound (hbefore.trans htype)

/-- Entries around a shared type are restricted as their values are, where what is
dropped in the type counts once. -/
theorem mirrors_around (hword : isEntryWord language = false)
    (hstep : Restricts language limit bound step) (hsound : Sound limit document)
    (hshares : Shares language limit bound part document (first ++ second) langs type reaches)
    (hici : Set.Ici limit ⊆ region) (hregion : ∀ entry ∈ first ++ second, part entry.2 ⊆ region)
    (dropped : Nat) :
    Mirrors document dropped
      (keepAll language step Prod.snd (first ++ (("type" : Text), type) :: second))
      (gather (entryOutcomes language document first ++ (Prod.mk ("type" : Text),
        countedOnce reaches (plainOutcome language (document.value type))) ::
          entryOutcomes language document second))
      (Leaves language limit region document (first ++ (("type" : Text), type) :: second)) := by
  have hspread := hshares.spread
  have hplace := mirrors_keepAll hword hstep (fun entry : Text × Nat => Prod.mk entry.1)
    (hspread.sublist (List.sublist_append_left first second)) hsound dropped
  rw [keepAll_append, gather_append]
  refine hplace.bind fun before keptFirst leftFirst count _ hboth => ?_
  have hfirst : GatheredEntries language limit part document before first keptFirst := hboth.1
  have hrest : Mirrors before (dropped + count)
      (keepAll language step Prod.snd ((("type" : Text), type) :: second))
      (gather ((Prod.mk ("type" : Text),
        countedOnce reaches (plainOutcome language (document.value type))) ::
          entryOutcomes language document second))
      (Around language limit part langs type before second) := by
    rcases List.mem_append.mp hshares.mem with hahead | hbehind
    · exact mirrors_langsFirst hword hstep hsound hshares hahead hfirst _
    · obtain ⟨-, -, hapart⟩ := List.pairwise_append.mp hspread.apart
      have hagree : ∀ entry ∈ second, Agree (part entry.2) document before := fun entry hentry =>
        hfirst.agree fun other hother => (hapart other hother entry hentry).symm
      have hsecond := hshares.of_append hbehind
      obtain ⟨hshares', hvalue⟩ := hsecond.agree hsound hfirst.sound hagree
      have hturn := mirrors_typeFirst hword hstep hfirst.sound hshares' (dropped + count)
      rw [hvalue, entryOutcomes,
        hsecond.spread.plainOutcomes_agree hsound hfirst.sound hagree] at hturn
      exact hturn
  refine hrest.map fun document' others left haround => ?_
  obtain ⟨here, value?, after, keptSecond, hturned, hsecond, rfl, rfl⟩ := haround
  obtain ⟨hall, hvalues, hvalue⟩ :=
    Gathered.around hsound hspread hshares.mem hici hregion hfirst hturned hsecond
  refine ⟨hall, ?_⟩
  have hkept := hturned.kept
  rw [List.map_append, hboth.2, ← map_value_congr hvalues]
  cases value? with
  | none => simp [hkept]
  | some value => simp [hkept, hvalue value rfl]

end

end Availability
end ApiBindings
