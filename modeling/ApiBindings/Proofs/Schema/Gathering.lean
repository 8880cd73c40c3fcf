import ApiBindings.Proofs.Schema.Settled
/-!
# What is left of the things in a node

The items of a list and the entries of an object are restricted one after the
other, and what is left of them is gathered with what was dropped.  Where a type
given to a node has been restricted ahead, what was dropped in it is missing from
the count of the node that declares it, and nothing else is different.
-/

namespace ApiBindings
namespace Availability

variable {language : Text}

/-- What is left after another step, and what was dropped in both of them. -/
def andThen {β γ : Type} (outcome : Except Failure (β × Nat))
    (rest : β → Except Failure (γ × Nat)) : Except Failure (γ × Nat) := do
  let (left, dropped) ← outcome
  let (others, droppedOthers) ← rest left
  return (others, dropped + droppedOthers)

/-- What is left of some things one after the other, each put in its place. -/
def gather {β : Type} : List ((Json → β) × Outcome) → Except Failure (List β × Nat)
  | [] => .ok ([], 0)
  | (place, outcome) :: rest => do
    let (value?, dropped) ← outcome
    let (others, droppedOthers) ← gather rest
    return ((value?.map place).toList ++ others, dropped + droppedOthers)

theorem gather_cons {β : Type} (place : Json → β) (outcome : Outcome)
    (rest : List ((Json → β) × Outcome)) :
    gather ((place, outcome) :: rest) = andThen outcome fun value? =>
      (gather rest).map (Prod.map ((value?.map place).toList ++ ·) id) := by
  rw [gather, andThen]
  cases outcome with
  | error failure => rfl
  | ok here => cases gather rest <;> rfl

theorem gather_append {β : Type} (first second : List ((Json → β) × Outcome)) :
    gather (first ++ second) = andThen (gather first) fun left =>
      (gather second).map (Prod.map (left ++ ·) id) := by
  induction first with
  | nil =>
      rw [List.nil_append]
      cases gather second <;>
        simp [gather, andThen, bind, Except.bind, pure, Except.pure, Except.map]
  | cons thing rest ih =>
      obtain ⟨place, outcome⟩ := thing
      rw [List.cons_append, gather, gather, ih]
      cases outcome with
      | error failure => rfl
      | ok here =>
          cases gather rest with
          | error failure => rfl
          | ok left =>
              cases gather second with
              | error failure => rfl
              | ok others =>
                  simp [andThen, bind, Except.bind, pure, Except.pure, Except.map, Nat.add_assoc]

/-- What becomes of entries, of which the name and the type may be settled. -/
def outcomes (language : Text) (name type : Option Outcome) (entries : List (Text × Json)) :
    List ((Json → Text × Json) × Outcome) :=
  entries.map fun entry => (Prod.mk entry.1, entryOutcome language name type entry.1 entry.2)

theorem restrictItems_eq_gather (items : List Json) :
    restrictItems language items =
      gather (items.map fun item => (id, plainOutcome language item)) := by
  induction items with
  | nil => rfl
  | cons item rest ih =>
      rw [restrictItems, List.map_cons, gather, ih, plainOutcome]
      cases isAvailable language item with
      | error failure => rfl
      | ok available =>
          cases available with
          | false => rfl
          | true => cases restrictAt language [] item <;> rfl

theorem restrictAt_items (items : List Json) :
    restrictAt language [] (.arr items) =
      (gather (items.map fun item => (id, plainOutcome language item))).map
        (Prod.map Json.arr id) := by
  rw [restrictAt, restrictItems_eq_gather]
  cases gather (items.map fun item => (id, plainOutcome language item)) <;> rfl

theorem restrictEntries_eq_gather (name type : Option Outcome) (entries : List (Text × Json)) :
    restrictEntries language name type entries = gather (outcomes language name type entries) := by
  induction entries with
  | nil => rw [restrictEntries]; rfl
  | cons entry rest ih =>
      rw [restrictEntries_cons, ih]
      rfl

theorem outcomes_append (name type : Option Outcome) (first second : List (Text × Json)) :
    outcomes language name type (first ++ second) =
      outcomes language name type first ++ outcomes language name type second :=
  List.map_append

/-! ## Entries set in place -/

theorem entryOutcome_of_ne {name type : Option Outcome} {key : Text} {value : Json}
    (hname : key ≠ "name") (htype : key ≠ "type") :
    entryOutcome language name type key value = plainOutcome language value := by
  simp [entryOutcome, hname, htype]

theorem entryOutcome_none (key : Text) (value : Json) :
    entryOutcome language none none key value = plainOutcome language value := by
  simp [entryOutcome]

/-- An entry that is settled is as good as one that is set in its place, of which
the same becomes. -/
theorem outcomes_setEntry {name type name' type' settled : Option Outcome} {key : Text}
    {value : Json} {entries : List (Text × Json)} (hkeys : (entries.map Prod.fst).Nodup)
    (hsettled : settled.isSome = true)
    (hkey : ∀ other, entryOutcome language name type key other =
      entryOutcome language name' type' key value)
    (hother : ∀ other, other ≠ key → ∀ value, entryOutcome language name type other value =
      entryOutcome language name' type' other value) :
    outcomes language name type (entries ++ placeFor key settled entries) =
      outcomes language name' type' (Json.setEntry key value entries) := by
  induction entries with
  | nil => simp [placeFor, hsettled, outcomes, Json.setEntry, hkey]
  | cons entry rest ih =>
      obtain ⟨k, v⟩ := entry
      obtain ⟨hnew, hrest⟩ := List.nodup_cons.mp hkeys
      rw [Json.setEntry, List.cons_append, outcomes, List.map_cons]
      split
      next heq =>
        subst heq
        have hplace : placeFor k settled ((k, v) :: rest) = [] := by
          simp [placeFor, Text.find?_cons]
        rw [hplace, List.append_nil, outcomes, List.map_cons, hkey]
        refine congrArg _ (List.map_congr_left fun entry hentry => ?_)
        have hne : entry.1 ≠ k := fun heq => hnew (heq ▸ List.mem_map.mpr ⟨entry, hentry, rfl⟩)
        rw [hother entry.1 hne]
      next hne =>
        have hplace : placeFor key settled ((k, v) :: rest) = placeFor key settled rest := by
          simp [placeFor, Text.find?_cons, Ne.symm hne]
        have htail := ih hrest
        rw [outcomes, outcomes] at htail
        rw [hplace, htail, outcomes, List.map_cons, hother k hne]

theorem keys_setEntry (key : Text) (value : Json) (entries : List (Text × Json)) :
    (Json.setEntry key value entries).map Prod.fst =
      if key ∈ entries.map Prod.fst then entries.map Prod.fst
      else entries.map Prod.fst ++ [key] := by
  induction entries with
  | nil => simp [Json.setEntry]
  | cons entry rest ih =>
      obtain ⟨k, v⟩ := entry
      rw [Json.setEntry]
      split
      next heq => simp [heq]
      next hne =>
        rw [List.map_cons, ih]
        by_cases hmem : key ∈ rest.map Prod.fst <;> simp_all [Ne.symm hne]

theorem nodup_setEntry {key : Text} {value : Json} {entries : List (Text × Json)}
    (hkeys : (entries.map Prod.fst).Nodup) :
    ((Json.setEntry key value entries).map Prod.fst).Nodup := by
  rw [keys_setEntry]
  split
  next => exact hkeys
  next hnew =>
    rw [List.nodup_append]
    refine ⟨hkeys, by simp, fun k hk other hother heq => hnew ?_⟩
    obtain rfl := List.mem_singleton.mp hother
    exact heq ▸ hk

/-- The entries of a node with the name that it is given. -/
def renamed (name : Option Text) (entries : List (Text × Json)) : List (Text × Json) :=
  (name.map fun name => Json.setEntry "name" (.str name) entries).getD entries

theorem nodup_renamed {name : Option Text} {entries : List (Text × Json)}
    (hkeys : (entries.map Prod.fst).Nodup) : ((renamed name entries).map Prod.fst).Nodup := by
  cases name with
  | none => exact hkeys
  | some text => exact nodup_setEntry hkeys

theorem nodup_applied {name : Option Text} {given : Option Json} {entries : List (Text × Json)}
    (hkeys : (entries.map Prod.fst).Nodup) :
    ((applied name given entries).map Prod.fst).Nodup := by
  have hrenamed : ((renamed name entries).map Prod.fst).Nodup := nodup_renamed hkeys
  cases given with
  | none => exact hrenamed
  | some given => exact nodup_setEntry hrenamed

theorem find?_renamed_congr {key : Text} {entries entries' : List (Text × Json)}
    (hsame : Text.find? key entries = Text.find? key entries') (name : Option Text) :
    Text.find? key (renamed name entries) = Text.find? key (renamed name entries') := by
  cases name with
  | none => exact hsame
  | some text => simp only [renamed, Option.map_some, Option.getD_some, find?_setEntry, hsame]

theorem restrictAt_renamed (entries : List (Text × Json)) :
    restrictAt language [] (.obj entries) = (do
      let name ← alias? language entries
      let given ← givenType? language (renamed name entries)
      let settled := name.map aliasOutcome
      let type := given.map (givenOutcome language entries)
      let (kept, dropped) ← restrictEntries language settled type (withPlaces settled type entries)
      return (.obj kept, dropped)) :=
  restrictAt_obj entries

theorem renamed_eq_self {name : Option Text} {given : Option Json} {values : List (Text × Json)}
    (hfound : ∀ key, Text.find? key (applied name given values) = Text.find? key values) :
    renamed name values = values := by
  cases name with
  | none => rfl
  | some text => exact setEntry_of_find? ((hfound "name").symm.trans (find?_applied_name ..))

theorem applied_eq_self {name : Option Text} {given : Option Json} {values : List (Text × Json)}
    (hfound : ∀ key, Text.find? key (applied name given values) = Text.find? key values) :
    applied name given values = values := by
  have hrenamed := renamed_eq_self hfound
  cases given with
  | none => exact hrenamed
  | some given =>
      change Json.setEntry "type" (typeFor given) (renamed name values) = values
      rw [hrenamed]
      exact setEntry_of_find? ((hfound "type").symm.trans (find?_applied_type ..))

theorem outcomes_renamed (name : Option Text) (type : Option Outcome)
    {entries : List (Text × Json)} (hkeys : (entries.map Prod.fst).Nodup) :
    outcomes language (name.map aliasOutcome) type
        (entries ++ placeFor "name" (name.map aliasOutcome) entries) =
      outcomes language none type (renamed name entries) := by
  cases name with
  | none => simp [placeFor, renamed]
  | some text =>
      refine outcomes_setEntry hkeys rfl (fun other => ?_) fun other hother value => ?_
      · simp only [entryOutcome, reduceIte]
        rfl
      · simp [entryOutcome, hother]

theorem outcomes_applied (name : Option Text) (given : Option Json) {entries : List (Text × Json)}
    {place : Option Outcome} (hkeys : (entries.map Prod.fst).Nodup)
    (hplace : place.isSome = given.isSome) :
    outcomes language none place
        (renamed name entries ++ placeFor "type" place (renamed name entries)) =
      outcomes language none place (applied name given entries) := by
  cases given with
  | none =>
      obtain rfl : place = none := by simpa using hplace
      simp only [placeFor, Option.isSome_none, Bool.false_and]
      exact congrArg _ (List.append_nil _)
  | some given =>
      obtain ⟨outcome, rfl⟩ := Option.isSome_iff_exists.mp hplace
      have hkey : ("type" : Text) ≠ "name" := by decide
      exact outcomes_setEntry (nodup_renamed hkeys) rfl (fun other => by simp [entryOutcome, hkey])
        fun other _ value => rfl

/-- Restricting a node restricts it as it is with the name and the type that it
is given, apart from what was dropped in the type. -/
theorem restrictEntries_applied (name : Option Text) (given : Option Json)
    {entries : List (Text × Json)} (hkeys : (entries.map Prod.fst).Nodup) :
    let settled := name.map aliasOutcome
    let type := given.map (givenOutcome language entries)
    restrictEntries language settled type (withPlaces settled type entries) =
      gather (outcomes language none type (applied name given entries)) := by
  intro settled type
  have hkey : ("type" : Text) ≠ "name" := by decide
  have hplace : placeFor "type" type entries = placeFor "type" type (renamed name entries) := by
    cases name with
    | none => rfl
    | some text => simp [placeFor, renamed, find?_setEntry, hkey]
  have hown : outcomes language settled type (placeFor "type" type entries) =
      outcomes language none type (placeFor "type" type entries) := by
    refine List.map_congr_left fun entry hentry => ?_
    have htype : entry.1 = "type" := by
      unfold placeFor at hentry
      split at hentry <;> simp_all
    simp [entryOutcome, htype, hkey]
  rw [restrictEntries_eq_gather, withPlaces, outcomes_append, outcomes_renamed name type hkeys,
    hown, hplace, ← outcomes_append, outcomes_applied name given hkeys (by simp [type])]

theorem restrictAt_aliasError {entries : List (Text × Json)} {failure : Failure}
    (hname : alias? language entries = .error failure) :
    restrictAt language [] (.obj entries) = .error failure := by
  rw [restrictAt_renamed, hname]
  rfl

theorem restrictAt_typeError {entries : List (Text × Json)} {name : Option Text}
    {failure : Failure} (hname : alias? language entries = .ok name)
    (hgiven : givenType? language (renamed name entries) = .error failure) :
    restrictAt language [] (.obj entries) = .error failure := by
  rw [restrictAt_renamed, hname]
  simp only [bind, Except.bind, hgiven]

/-- What is left of a node is what is left of its entries with the name and the type
that it is given. -/
theorem restrictAt_applied {entries : List (Text × Json)} {name : Option Text}
    {given : Option Json} (hkeys : (entries.map Prod.fst).Nodup)
    (hname : alias? language entries = .ok name)
    (hgiven : givenType? language (renamed name entries) = .ok given) :
    restrictAt language [] (.obj entries) =
      (gather (outcomes language none (given.map (givenOutcome language entries))
        (applied name given entries))).map (Prod.map Json.obj id) := by
  rw [← restrictEntries_applied name given hkeys, restrictAt_renamed, hname]
  simp only [bind, Except.bind, hgiven]
  generalize restrictEntries language _ _ _ = result
  cases result <;> rfl

/-! ## What was dropped ahead -/

/-- An outcome with some more nodes dropped. -/
def adding {β : Type} (count : Nat) (outcome : Except Failure (β × Nat)) :
    Except Failure (β × Nat) :=
  outcome.map fun (left, dropped) => (left, dropped + count)

/-- A key of an entry that restricting a node neither reads nor sets. -/
def Ordinary (key : Text) : Prop :=
  key ≠ "name" ∧ key ≠ "type" ∧ key ≠ "langs"

/-- Some nodes were dropped from a value ahead: the same is left of it, and all
that is missing is that they are counted. -/
structure Sheds (language : Text) (count : Nat) (value value' : Json) : Prop where
  available : isAvailable language value' = isAvailable language value
  outcome : restrictAt language [] value = adding count (restrictAt language [] value')
  proper : value.Proper → value'.Proper

theorem Sheds.refl (value : Json) : Sheds language 0 value value where
  available := rfl
  outcome := by cases restrictAt language [] value <;> rfl
  proper := id

/-- What was dropped from a value ahead matters where the value is kept. -/
theorem Sheds.plainOutcome_eq {value value' : Json} {count : Nat}
    (hsheds : Sheds language count value value') {seen : Nat}
    (hseen : isAvailable language value = .ok true → seen = count)
    (hunseen : isAvailable language value ≠ .ok true → seen = 0) :
    plainOutcome language value = adding seen (plainOutcome language value') := by
  unfold plainOutcome
  rw [hsheds.available, hsheds.outcome]
  cases havailable : isAvailable language value with
  | error failure => rfl
  | ok available =>
      cases available with
      | false =>
          obtain rfl := hunseen (by simp [havailable])
          rfl
      | true =>
          obtain rfl := hseen havailable
          cases restrictAt language [] value' <;> rfl

theorem gather_adding {β : Type} {place : Json → β} {outcome outcome' : Outcome} {count : Nat}
    (houtcome : outcome = adding count outcome') (first second : List ((Json → β) × Outcome)) :
    gather (first ++ (place, outcome) :: second) =
      adding count (gather (first ++ (place, outcome') :: second)) := by
  subst houtcome
  rw [gather_append, gather_append, gather, gather]
  cases gather first with
  | error failure => rfl
  | ok before =>
      cases outcome' with
      | error failure => rfl
      | ok here =>
          cases gather second with
          | error failure => rfl
          | ok after =>
              simp [adding, andThen, Except.map, bind, Except.bind, pure, Except.pure]
              omega

section

variable {entries entries' : List (Text × Json)}

theorem declared?_congr (hlangs : Text.find? "langs" entries = Text.find? "langs" entries')
    (key : Text) : declared? key entries = declared? key entries' := by
  unfold declared? langs?
  rw [hlangs]

theorem failure_congr (hname : Text.find? "name" entries = Text.find? "name" entries')
    (cause : Cause) : failure cause entries = failure cause entries' := by
  unfold failure
  rw [hname]

theorem isAvailable_congr (hlangs : Text.find? "langs" entries = Text.find? "langs" entries')
    (hname : Text.find? "name" entries = Text.find? "name" entries') :
    isAvailable language (.obj entries) = isAvailable language (.obj entries') := by
  simp only [isAvailable_obj, declared?_congr hlangs, failure_congr hname]

theorem alias?_congr (hlangs : Text.find? "langs" entries = Text.find? "langs" entries')
    (hname : Text.find? "name" entries = Text.find? "name" entries') :
    alias? language entries = alias? language entries' := by
  simp only [alias?_eq, declared?_congr hlangs, failure_congr hname]

theorem givenType?_congr (hlangs : Text.find? "langs" entries = Text.find? "langs" entries')
    (hname : Text.find? "name" entries = Text.find? "name" entries') :
    givenType? language entries = givenType? language entries' := by
  simp only [givenType?_eq, declared?_congr hlangs, failure_congr hname]

theorem givenOutcome_congr (hlangs : Text.find? "langs" entries = Text.find? "langs" entries')
    (given : Json) :
    givenOutcome language entries given = givenOutcome language entries' given := by
  have hreaches : reachesTypes language entries = reachesTypes language entries' := by
    unfold reachesTypes langs?
    rw [hlangs]
  unfold givenOutcome
  rw [hreaches]

end

theorem find?_append_of_ne {key other : Text} (hother : other ≠ key) (value value' : Json)
    (first second : List (Text × Json)) :
    Text.find? other (first ++ (key, value) :: second) =
      Text.find? other (first ++ (key, value') :: second) := by
  rw [find?_append, find?_append, Text.find?_cons, Text.find?_cons, if_neg hother, if_neg hother]

theorem restrictEntries_adding {name type : Option Outcome} {key : Text} {value value' : Json}
    {count : Nat} (hname : key ≠ "name") (htype : key ≠ "type")
    (houtcome : plainOutcome language value = adding count (plainOutcome language value'))
    (first second : List (Text × Json)) :
    restrictEntries language name type (first ++ (key, value) :: second) =
      adding count (restrictEntries language name type (first ++ (key, value') :: second)) := by
  have hentry : entryOutcome language name type key value =
      adding count (entryOutcome language name type key value') := by
    rw [entryOutcome_of_ne hname htype, entryOutcome_of_ne hname htype, houtcome]
  rw [restrictEntries_eq_gather, restrictEntries_eq_gather, outcomes_append, outcomes_append]
  exact gather_adding hentry _ _

theorem withPlaces_append (name type : Option Outcome) {key : Text} (hname : key ≠ "name")
    (htype : key ≠ "type") (first second : List (Text × Json)) :
    ∃ places, ∀ value, withPlaces name type (first ++ (key, value) :: second) =
      first ++ (key, value) :: (second ++ places) := by
  have hplace : ∀ {other : Text} (settled : Option Outcome), other ≠ key → ∀ value,
      placeFor other settled (first ++ (key, value) :: second) =
        placeFor other settled (first ++ (key, .null) :: second) := by
    intro other settled hother value
    unfold placeFor
    rw [find?_append_of_ne hother value .null]
  refine ⟨placeFor "name" name (first ++ (key, .null) :: second) ++
    placeFor "type" type (first ++ (key, .null) :: second), fun value => ?_⟩
  rw [withPlaces, hplace name hname.symm, hplace type htype.symm]
  simp only [List.append_assoc, List.cons_append]

/-- What was dropped ahead from the value of an entry that restricting a node does
not read was dropped ahead from the node. -/
theorem Sheds.entry {key : Text} {value value' : Json} {count seen : Nat}
    (hsheds : Sheds language count value value') (hkey : Ordinary key)
    (hseen : isAvailable language value = .ok true → seen = count)
    (hunseen : isAvailable language value ≠ .ok true → seen = 0)
    (first second : List (Text × Json)) :
    Sheds language seen (.obj (first ++ (key, value) :: second))
      (.obj (first ++ (key, value') :: second)) := by
  obtain ⟨hname, htype, hlangs⟩ := hkey
  have hsame : ∀ {other : Text}, other ≠ key →
      Text.find? other (first ++ (key, value) :: second) =
        Text.find? other (first ++ (key, value') :: second) :=
    fun hother => find?_append_of_ne hother value value' first second
  have hsameName := hsame (Ne.symm hname)
  have hsameLangs := hsame (Ne.symm hlangs)
  have hplain := hsheds.plainOutcome_eq hseen hunseen
  refine ⟨(isAvailable_congr hsameLangs hsameName).symm, ?_, fun hproper => ?_⟩
  · rw [restrictAt_renamed, restrictAt_renamed, alias?_congr hsameLangs hsameName]
    cases alias? language (first ++ (key, value') :: second) with
    | error failure => rfl
    | ok own =>
        have hrenamed : givenType? language (renamed own (first ++ (key, value) :: second)) =
            givenType? language (renamed own (first ++ (key, value') :: second)) :=
          givenType?_congr (find?_renamed_congr hsameLangs own) (find?_renamed_congr hsameName own)
        dsimp only [bind, Except.bind]
        rw [hrenamed]
        cases givenType? language (renamed own (first ++ (key, value') :: second)) with
        | error failure => rfl
        | ok given =>
            have hgiven : given.map (givenOutcome language (first ++ (key, value) :: second)) =
                given.map (givenOutcome language (first ++ (key, value') :: second)) :=
              congrArg (Option.map · given) (funext (givenOutcome_congr hsameLangs))
            dsimp only
            rw [hgiven]
            generalize given.map (givenOutcome language (first ++ (key, value') :: second)) = type
            obtain ⟨places, hplaces⟩ :=
              withPlaces_append (own.map aliasOutcome) type hname htype first second
            rw [hplaces, hplaces, restrictEntries_adding hname htype hplain]
            cases restrictEntries language (own.map aliasOutcome) type
              (first ++ (key, value') :: (second ++ places)) <;> rfl
  · rw [Json.Proper, Json.properEntries_iff] at hproper ⊢
    obtain ⟨hkeys, hvalues⟩ := hproper
    refine ⟨by simpa using hkeys, fun entry hentry => ?_⟩
    rcases List.mem_append.mp hentry with hfirst | hrest
    · exact hvalues entry (List.mem_append_left _ hfirst)
    · rcases List.mem_cons.mp hrest with rfl | hsecond
      · exact hsheds.proper (hvalues _ (List.mem_append_right _ List.mem_cons_self))
      · exact hvalues entry (List.mem_append_right _ (List.mem_cons_of_mem _ hsecond))

/-! ## A type in two places -/

/-- What becomes of a type that is shared: what was dropped in it counts where it
is declared, if that is reached. -/
def countedOnce (reaches : Bool) (outcome : Outcome) : Outcome := do
  let (value?, dropped) ← outcome
  return (value?, if value?.isSome && reaches then 0 else dropped)

theorem countedOnce_false (outcome : Outcome) : countedOnce false outcome = outcome := by
  cases outcome with
  | error failure => rfl
  | ok result => simp [countedOnce, bind, Except.bind, pure, Except.pure]

theorem countedOnce_of_unavailable {value : Json} (reaches : Bool)
    (havailable : isAvailable language value ≠ .ok true) :
    countedOnce reaches (plainOutcome language value) = plainOutcome language value := by
  unfold plainOutcome
  cases hcase : isAvailable language value with
  | error failure => rfl
  | ok available =>
      cases available with
      | false => rfl
      | true => exact absurd hcase havailable

theorem plainOutcome_ok {value left : Json} {count : Nat}
    (havailable : isAvailable language value = .ok true)
    (hrun : restrictAt language [] value = .ok (left, count)) :
    plainOutcome language value = .ok (some left, count) := by
  rw [plainOutcome, havailable, hrun]
  rfl

theorem plainOutcome_some {value left : Json} {count : Nat}
    (hplain : plainOutcome language value = .ok (some left, count)) :
    isAvailable language value = .ok true ∧
      restrictAt language [] value = .ok (left, count) := by
  obtain ⟨havailable, dropped, hrun⟩ :=
    left?_eq_some.mp (show left? language value = some left by rw [left?, hplain]; rfl)
  rw [plainOutcome_ok havailable hrun] at hplain
  obtain ⟨-, rfl⟩ := Prod.ext_iff.mp (Except.ok.inj hplain)
  exact ⟨havailable, hrun⟩

/-- What is left of a type and of the entries behind it, where what was dropped in
the type is missing from those. -/
theorem gather_countedOnce {place : Json → Text × Json} {value? : Option Json} {count seen : Nat}
    {reaches : Bool} {rest rest' : List ((Json → Text × Json) × Outcome)}
    (hrest : gather rest = adding seen (gather rest'))
    (hseen : seen = if value?.isSome && reaches then count else 0) :
    gather ((place, countedOnce reaches (.ok (value?, count))) :: rest) =
      adding count ((gather rest').map (Prod.map ((value?.map place).toList ++ ·) id)) := by
  subst hseen
  rw [gather_cons, hrest]
  cases gather rest' with
  | error failure => rfl
  | ok others =>
      cases value? <;> cases reaches <;>
        simp [countedOnce, andThen, adding, Except.map, bind, Except.bind, pure, Except.pure,
          Nat.add_comm]

theorem adding_zero {β : Type} (outcome : Except Failure (β × Nat)) :
    adding 0 outcome = outcome := by
  cases outcome <;> rfl

/-- Whether restricting a node gets to the types that it declares. -/
theorem reachesTypes_iff {values langs : List (Text × Json)} {types : Json}
    (hlangs : Text.find? "langs" values = some (.obj langs))
    (htypes : Text.find? "types" langs = some types) :
    reachesTypes language values = true ↔ isAvailable language (.obj langs) = .ok true ∧
      isAvailable language types = .ok true := by
  unfold reachesTypes langs?
  rw [hlangs]
  dsimp only
  rw [htypes]
  cases isAvailable language (.obj langs) with
  | error failure => simp
  | ok available =>
      cases available with
      | false => simp
      | true => cases hcase : isAvailable language types <;> simp [hcase]

theorem givenOutcome_eq_countedOnce {values : List (Text × Json)} {given : Json}
    (htext : ∀ text, given ≠ .str text) :
    givenOutcome language values given =
      countedOnce (reachesTypes language values) (plainOutcome language given) := by
  cases given with
  | str text => exact absurd rfl (htext text)
  | _ => rfl

end Availability
end ApiBindings
