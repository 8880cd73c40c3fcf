import ApiBindings.Proofs.Decimal.Integers
import ApiBindings.Proofs.Nominal.Growth
import Mathlib.Data.List.Perm.Subperm
/-!
# Sameness of JSON values

Sameness is transitive, and it is reflexive and symmetric on values whose
objects have distinct keys.  Truth values, integers and binary64 numbers that
are the same share one number; all other values that are the same are of one
kind.
-/

namespace ApiBindings

/-! ## Numbers -/

namespace Binary64

open Classical in
/-- The integer that a binary64 number is, or else the number itself. -/
noncomputable def number (x : Binary64) : Int ⊕ Binary64 :=
  if h : ∃ n, x.isInt n = true then .inl h.choose else .inr x

theorem number_eq_inl {x : Binary64} {n : Int} : x.number = .inl n ↔ x.isInt n = true := by
  unfold number
  split
  next h =>
    constructor
    · intro heq
      have hchoose := h.choose_spec
      rwa [Sum.inl.inj heq] at hchoose
    · intro hn
      exact congrArg Sum.inl (isInt_unique h.choose_spec hn)
  next h => simpa using fun hn => h ⟨n, hn⟩

theorem inl_eq_number {x : Binary64} {n : Int} : .inl n = x.number ↔ x.isInt n = true :=
  eq_comm.trans number_eq_inl

theorem number_eq_iff {x y : Binary64} : y.number = x.number ↔ x.sameNumber y = true := by
  constructor
  · intro heq
    cases hx : x.number with
    | inl n =>
        exact sameNumber_of_isInt (number_eq_inl.mp hx) (number_eq_inl.mp (heq.trans hx))
    | inr z =>
        have hxz : x = z := by
          unfold number at hx
          split at hx <;> simp_all
        have hyz : y = z := by
          have hy := heq.trans hx
          unfold number at hy
          split at hy <;> simp_all
        simp [sameNumber, hxz, hyz]
  · intro hsame
    rw [sameNumber, Bool.or_eq_true, Bool.and_eq_true, decide_eq_true_eq] at hsame
    rcases hsame with rfl | ⟨hx, hy⟩
    · rfl
    · rw [number_eq_inl.mpr (isInt_zero_of_isZero hx),
        number_eq_inl.mpr (isInt_zero_of_isZero hy)]

end Binary64

namespace Json

/-- The number that a value is, if it is one. -/
noncomputable def number? : Json → Option (Int ⊕ Binary64)
  | .bool b => some (.inl (if b then 1 else 0))
  | .int n => some (.inl n)
  | .float x => some x.number
  | _ => none

/-- What is the same as a number is that number. -/
theorem same_iff_number {v w : Json} {a : Int ⊕ Binary64} (hv : v.number? = some a) :
    v.same w = true ↔ w.number? = some a := by
  cases v <;> simp only [number?, Option.some.injEq, reduceCtorEq] at hv <;> subst hv <;>
    cases w <;>
    simp [Json.same, number?, asInt?, Binary64.number_eq_iff, Binary64.number_eq_inl,
      Binary64.inl_eq_number]

theorem number?_eq_none_of_same {v w : Json} (hsame : v.same w = true)
    (hv : v.number? = none) : w.number? = none := by
  cases v <;> simp only [number?, reduceCtorEq] at hv <;> cases w <;>
    simp_all [Json.same, number?, asInt?]

/-! ## Lists and objects -/

theorem mem_of_find? {α : Type} {key : Text} {value : α} {entries : List (Text × α)}
    (hfound : Text.find? key entries = some value) : (key, value) ∈ entries := by
  induction entries with
  | nil => simp [Text.find?] at hfound
  | cons entry rest ih =>
      obtain ⟨k, v⟩ := entry
      rw [Text.find?_cons] at hfound
      split at hfound
      next hkey =>
        obtain rfl : v = value := by simpa using hfound
        exact hkey ▸ List.mem_cons_self
      next => exact List.mem_cons_of_mem _ (ih hfound)

theorem find?_of_mem {α : Type} {key : Text} {value : α} {entries : List (Text × α)}
    (hkeys : (entries.map Prod.fst).Nodup) (hmem : (key, value) ∈ entries) :
    Text.find? key entries = some value := by
  induction entries with
  | nil => simp at hmem
  | cons entry rest ih =>
      obtain ⟨k, v⟩ := entry
      obtain ⟨hnew, hkeys⟩ := List.nodup_cons.mp hkeys
      rw [Text.find?_cons]
      rcases List.mem_cons.mp hmem with heq | hrest
      · obtain ⟨rfl, rfl⟩ : key = k ∧ value = v := by simpa using heq
        simp
      · have hne : key ≠ k := by
          rintro rfl
          exact hnew (List.mem_map.mpr ⟨(key, value), hrest, rfl⟩)
        rw [if_neg hne]
        exact ih hkeys hrest

theorem sameEntries_iff {es fs : List (Text × Json)} :
    sameEntries es fs = true ↔
      ∀ entry ∈ es, ∃ w, Text.find? entry.1 fs = some w ∧ entry.2.same w = true := by
  induction es with
  | nil => simp [sameEntries]
  | cons entry rest ih =>
      obtain ⟨k, v⟩ := entry
      rw [sameEntries, Bool.and_eq_true, ih, List.forall_mem_cons]
      cases Text.find? k fs <;> simp

/-- An object that has an equal value for every key of another one that is as
large has no other keys. -/
theorem exists_of_sameEntries {es fs : List (Text × Json)}
    (hlength : es.length = fs.length) (hkeys : (es.map Prod.fst).Nodup)
    (hkeys' : (fs.map Prod.fst).Nodup) (hsame : sameEntries es fs = true)
    {key : Text} {w : Json} (hmem : (key, w) ∈ fs) :
    ∃ v, (key, v) ∈ es ∧ v.same w = true := by
  have hfound := sameEntries_iff.mp hsame
  have hsubset : es.map Prod.fst ⊆ fs.map Prod.fst := by
    intro k hk
    obtain ⟨entry, hentry, rfl⟩ := List.mem_map.mp hk
    obtain ⟨u, hu, -⟩ := hfound entry hentry
    exact List.mem_map.mpr ⟨_, mem_of_find? hu, rfl⟩
  have hperm : (es.map Prod.fst).Perm (fs.map Prod.fst) :=
    (List.subperm_of_subset hkeys hsubset).perm_of_length_le (by simp [hlength])
  have hkey : key ∈ es.map Prod.fst :=
    hperm.mem_iff.mpr (List.mem_map.mpr ⟨_, hmem, rfl⟩)
  obtain ⟨⟨k, v⟩, hentry, rfl⟩ := List.mem_map.mp hkey
  obtain ⟨u, hu, hvu⟩ := hfound _ hentry
  obtain rfl : u = w := by simpa [find?_of_mem hkeys' hmem] using hu.symm
  exact ⟨v, hentry, hvu⟩

mutual

/-- All objects in a value have distinct keys, as those read from text do. -/
def Proper : Json → Prop
  | .arr items => ProperItems items
  | .obj entries => (entries.map Prod.fst).Nodup ∧ ProperEntries entries
  | _ => True

def ProperItems : List Json → Prop
  | [] => True
  | item :: rest => Proper item ∧ ProperItems rest

def ProperEntries : List (Text × Json) → Prop
  | [] => True
  | (_, value) :: rest => Proper value ∧ ProperEntries rest

end

theorem ProperEntries.of_mem {entries : List (Text × Json)} (hproper : ProperEntries entries)
    {entry : Text × Json} (hmem : entry ∈ entries) : entry.2.Proper := by
  induction entries with
  | nil => simp at hmem
  | cons first rest ih =>
      obtain ⟨k, v⟩ := first
      rw [ProperEntries] at hproper
      rcases List.mem_cons.mp hmem with rfl | hmem
      · exact hproper.1
      · exact ih hproper.2 hmem

mutual

theorem same_refl (v : Json) (hv : v.Proper) : v.same v = true := by
  cases v with
  | arr items =>
      simp only [Json.same]
      exact sameItems_refl items (by simpa [Proper] using hv)
  | obj entries =>
      rw [Proper] at hv
      simp only [Json.same, Bool.and_eq_true, decide_eq_true_eq, true_and]
      refine sameEntries_iff.mpr ?_
      rintro ⟨k, v⟩ hentry
      exact ⟨v, find?_of_mem hv.1 hentry, sameEntries_refl entries hv.2 _ hentry⟩
  | _ => exact Json.same_self_of_isKey rfl
termination_by structural v

theorem sameItems_refl (vs : List Json) (hvs : ProperItems vs) :
    sameItems vs vs = true := by
  cases vs with
  | nil => simp [sameItems]
  | cons v vs =>
      rw [ProperItems] at hvs
      rw [sameItems, Bool.and_eq_true]
      exact ⟨same_refl v hvs.1, sameItems_refl vs hvs.2⟩
termination_by structural vs

theorem sameEntries_refl (entries : List (Text × Json)) (hproper : ProperEntries entries)
    (entry : Text × Json) (hmem : entry ∈ entries) : entry.2.same entry.2 = true := by
  cases entries with
  | nil => simp at hmem
  | cons first rest =>
      obtain ⟨k, v⟩ := first
      rw [ProperEntries] at hproper
      rcases List.mem_cons.mp hmem with rfl | hmem
      · exact same_refl v hproper.1
      · exact sameEntries_refl rest hproper.2 entry hmem
termination_by structural entries

end

mutual

theorem same_symm (v w : Json) (hv : v.Proper) (hw : w.Proper) (hsame : v.same w = true) :
    w.same v = true := by
  cases hnumber : v.number? with
  | some a =>
      have hw := (same_iff_number hnumber).mp hsame
      exact (same_iff_number hw).mpr hnumber
  | none =>
      have hnumber' := number?_eq_none_of_same hsame hnumber
      cases v with
      | null => cases w <;> simp_all [Json.same, asInt?]
      | str text => rw [Json.same_str_left.mp hsame]; simp [Json.same]
      | arr items =>
          cases w <;> simp only [Json.same, asInt?, Bool.false_eq_true] at hsame
          next items' =>
            simp only [Json.same]
            exact sameItems_symm items items' (by simpa [Proper] using hv)
              (by simpa [Proper] using hw) hsame
      | obj entries =>
          cases w <;> simp only [Json.same, asInt?, Bool.false_eq_true, Bool.and_eq_true,
            decide_eq_true_eq] at hsame
          next entries' =>
            rw [Proper] at hv hw
            obtain ⟨hlength, hentries⟩ := hsame
            simp only [Json.same, Bool.and_eq_true, decide_eq_true_eq]
            refine ⟨hlength.symm, sameEntries_iff.mpr ?_⟩
            rintro ⟨k, w⟩ hentry
            obtain ⟨v, hv', hvw⟩ :=
              exists_of_sameEntries hlength hv.1 hw.1 hentries hentry
            exact ⟨v, find?_of_mem hv.1 hv', sameEntries_symm entries hv.2 _ hv' w
              (hw.2.of_mem hentry) hvw⟩
      | _ => simp [number?] at hnumber
termination_by structural v

theorem sameItems_symm (vs ws : List Json) (hvs : ProperItems vs) (hws : ProperItems ws)
    (hsame : sameItems vs ws = true) : sameItems ws vs = true := by
  cases vs with
  | nil => cases ws <;> simp_all [sameItems]
  | cons v vs =>
      cases ws with
      | nil => simp [sameItems] at hsame
      | cons w ws =>
          rw [ProperItems] at hvs hws
          rw [sameItems, Bool.and_eq_true] at hsame ⊢
          exact ⟨same_symm v w hvs.1 hws.1 hsame.1,
            sameItems_symm vs ws hvs.2 hws.2 hsame.2⟩
termination_by structural vs

theorem sameEntries_symm (entries : List (Text × Json)) (hproper : ProperEntries entries)
    (entry : Text × Json) (hmem : entry ∈ entries) (w : Json) (hw : w.Proper)
    (hsame : entry.2.same w = true) : w.same entry.2 = true := by
  cases entries with
  | nil => simp at hmem
  | cons first rest =>
      obtain ⟨k, v⟩ := first
      rw [ProperEntries] at hproper
      rcases List.mem_cons.mp hmem with rfl | hmem
      · exact same_symm v w hproper.1 hw hsame
      · exact sameEntries_symm rest hproper.2 entry hmem w hw hsame
termination_by structural entries

end

mutual

theorem same_trans (u v w : Json) (huv : u.same v = true) (hvw : v.same w = true) :
    u.same w = true := by
  cases hnumber : u.number? with
  | some a =>
      have hv := (same_iff_number hnumber).mp huv
      exact (same_iff_number hnumber).mpr ((same_iff_number hv).mp hvw)
  | none =>
      cases u with
      | null =>
          cases v <;> simp [Json.same, asInt?] at huv
          exact hvw
      | str text => rwa [Json.same_str_left.mp huv] at hvw
      | arr items =>
          cases v <;> simp only [Json.same, asInt?, Bool.false_eq_true] at huv
          next items' =>
            cases w <;> simp only [Json.same, asInt?, Bool.false_eq_true] at hvw
            next items'' =>
              simp only [Json.same]
              exact sameItems_trans items items' items'' huv hvw
      | obj entries =>
          cases v <;> simp only [Json.same, asInt?, Bool.false_eq_true, Bool.and_eq_true,
            decide_eq_true_eq] at huv
          next entries' =>
            cases w <;> simp only [Json.same, asInt?, Bool.false_eq_true, Bool.and_eq_true,
              decide_eq_true_eq] at hvw
            next entries'' =>
              simp only [Json.same, Bool.and_eq_true, decide_eq_true_eq]
              refine ⟨huv.1.trans hvw.1, sameEntries_iff.mpr ?_⟩
              intro entry hentry
              obtain ⟨v, hv, huv'⟩ := sameEntries_iff.mp huv.2 entry hentry
              obtain ⟨w, hw, hvw'⟩ := sameEntries_iff.mp hvw.2 _ (mem_of_find? hv)
              exact ⟨w, hw, sameEntries_trans entries entry hentry v w huv' hvw'⟩
      | _ => simp [number?] at hnumber
termination_by structural u

theorem sameItems_trans (us vs ws : List Json) (huv : sameItems us vs = true)
    (hvw : sameItems vs ws = true) : sameItems us ws = true := by
  cases us with
  | nil => cases vs <;> simp_all [sameItems]
  | cons u us =>
      cases vs with
      | nil => simp [sameItems] at huv
      | cons v vs =>
          cases ws with
          | nil => simp [sameItems] at hvw
          | cons w ws =>
              rw [sameItems, Bool.and_eq_true] at huv hvw ⊢
              exact ⟨same_trans u v w huv.1 hvw.1, sameItems_trans us vs ws huv.2 hvw.2⟩
termination_by structural us

theorem sameEntries_trans (entries : List (Text × Json)) (entry : Text × Json)
    (hmem : entry ∈ entries) (v w : Json) (huv : entry.2.same v = true)
    (hvw : v.same w = true) : entry.2.same w = true := by
  cases entries with
  | nil => simp at hmem
  | cons first rest =>
      obtain ⟨k, u⟩ := first
      rcases List.mem_cons.mp hmem with rfl | hmem
      · exact same_trans u v w huv hvw
      · exact sameEntries_trans rest entry hmem v w huv hvw
termination_by structural entries

end

end Json
end ApiBindings
