import ApiBindings.Json.Reader
import ApiBindings.Proofs.Json.Same
/-!
# Values read from text

Every object in a value that was read from text has distinct keys: an entry whose
key came before takes the place of the old one.
-/

namespace ApiBindings
namespace Json

theorem nodup_setEntry {key : Text} {value : Json} {entries : List (Text × Json)}
    (hkeys : (entries.map Prod.fst).Nodup) :
    ((setEntry key value entries).map Prod.fst).Nodup := by
  have hmem : ∀ {k} {entries : List (Text × Json)},
      k ∈ (setEntry key value entries).map Prod.fst →
        k = key ∨ k ∈ entries.map Prod.fst := by
    intro k entries hk
    induction entries with
    | nil => simpa [setEntry] using hk
    | cons entry rest ih =>
        obtain ⟨k', v⟩ := entry
        rw [setEntry] at hk
        split at hk
        next => exact .inr hk
        next =>
          rcases List.mem_cons.mp hk with rfl | hk
          · exact .inr List.mem_cons_self
          · exact (ih hk).imp_right (List.mem_cons_of_mem _)
  induction entries with
  | nil => simp [setEntry]
  | cons entry rest ih =>
      obtain ⟨k, v⟩ := entry
      obtain ⟨hnew, hrest⟩ := List.nodup_cons.mp hkeys
      rw [setEntry]
      split
      next => exact hkeys
      next hne =>
        refine List.nodup_cons.mpr ⟨fun hk => ?_, ih hrest⟩
        rcases hmem hk with heq | hk
        · exact hne heq
        · exact hnew hk

theorem ProperEntries.setEntry {key : Text} {value : Json} {entries : List (Text × Json)}
    (hvalue : value.Proper) (hentries : ProperEntries entries) :
    ProperEntries (setEntry key value entries) := by
  induction entries with
  | nil => exact ⟨hvalue, trivial⟩
  | cons entry rest ih =>
      obtain ⟨k, v⟩ := entry
      obtain ⟨hv, hrest⟩ := hentries
      rw [Json.setEntry]
      split
      next => exact ⟨hvalue, hrest⟩
      next => exact ⟨hv, ih hrest⟩

namespace Reader

theorem proper_of_magnitude {negative : Bool} {text rest : List Char} {v : Json}
    (hread : magnitude negative text = .ok (v, rest)) : v.Proper := by
  unfold magnitude at hread
  grind [Json.Proper]

theorem proper_of_scalar {text rest : List Char} {v : Json}
    (hread : scalar text = .ok (v, rest)) : v.Proper := by
  unfold scalar at hread
  split at hread
  next found hfound =>
    obtain ⟨⟨w, value⟩, hword, hfound⟩ := List.exists_of_findSome?_eq_some hfound
    obtain ⟨after, -, rfl⟩ := Option.map_eq_some_iff.mp hfound
    obtain rfl : value = v := (Prod.ext_iff.mp (Except.ok.inj hread)).1
    simp only [words, List.mem_cons, Prod.mk.injEq, List.not_mem_nil, or_false] at hword
    obtain ⟨-, rfl⟩ | ⟨-, rfl⟩ | ⟨-, rfl⟩ | ⟨-, rfl⟩ | ⟨-, rfl⟩ | ⟨-, rfl⟩ := hword <;>
      exact trivial
  next =>
    split at hread
    next => exact proper_of_magnitude hread
    next => exact proper_of_magnitude hread

mutual

theorem proper_of_value (fuel : Nat) (text : List Char) {rest : List Char} {v : Json}
    (hread : value fuel text = .ok (v, rest)) : v.Proper := by
  unfold value at hread
  split at hread
  next => simp at hread
  next fuel text =>
    obtain ⟨⟨spelled, after⟩, -, hread⟩ := exists_of_bind_ok hread
    obtain ⟨rfl, -⟩ : Json.str spelled = v ∧ after = rest := by
      simpa [pure, Except.pure] using hread
    exact trivial
  next fuel text =>
    split at hread
    next =>
      obtain ⟨rfl, -⟩ : Json.arr [] = v ∧ _ = rest := by simpa using hread
      exact trivial
    next text =>
      obtain ⟨⟨read, after⟩, hitems, hread⟩ := exists_of_bind_ok hread
      obtain ⟨rfl, -⟩ : Json.arr read = v ∧ after = rest := by
        simpa [pure, Except.pure] using hread
      exact proper_of_items fuel _ hitems
  next fuel text =>
    split at hread
    next =>
      obtain ⟨rfl, -⟩ : Json.obj [] = v ∧ _ = rest := by simpa using hread
      exact ⟨.nil, trivial⟩
    next text =>
      obtain ⟨⟨read, after⟩, hentries, hread⟩ := exists_of_bind_ok hread
      obtain ⟨rfl, -⟩ : Json.obj read = v ∧ after = rest := by
        simpa [pure, Except.pure] using hread
      exact proper_of_entries fuel [] _ .nil trivial hentries
  next => exact proper_of_scalar hread

theorem proper_of_items (fuel : Nat) (text : List Char) {rest : List Char}
    {read : List Json} (hread : items fuel text = .ok (read, rest)) : ProperItems read := by
  unfold items at hread
  split at hread
  next => simp at hread
  next fuel =>
    obtain ⟨⟨item, after⟩, hitem, hread⟩ := exists_of_bind_ok hread
    have hproper := proper_of_value fuel _ hitem
    dsimp only at hread
    split at hread
    next =>
      obtain ⟨rfl, -⟩ : [item] = read ∧ _ = rest := by simpa [pure, Except.pure] using hread
      exact ⟨hproper, trivial⟩
    next =>
      obtain ⟨⟨more, after⟩, hmore, hread⟩ := exists_of_bind_ok hread
      obtain ⟨rfl, -⟩ : item :: more = read ∧ after = rest := by
        simpa [pure, Except.pure] using hread
      exact ⟨hproper, proper_of_items fuel _ hmore⟩
    next => simp [throw, throwThe, MonadExceptOf.throw] at hread

theorem proper_of_entries (fuel : Nat) (done : List (Text × Json)) (text : List Char)
    {rest : List Char} {read : List (Text × Json)} (hkeys : (done.map Prod.fst).Nodup)
    (hdone : ProperEntries done) (hread : entries fuel done text = .ok (read, rest)) :
    (read.map Prod.fst).Nodup ∧ ProperEntries read := by
  unfold entries at hread
  split at hread
  next => simp at hread
  next fuel text =>
    obtain ⟨⟨key, after⟩, -, hread⟩ := exists_of_bind_ok hread
    dsimp only at hread
    split at hread
    next =>
      obtain ⟨⟨v, after⟩, hvalue, hread⟩ := exists_of_bind_ok hread
      have hkeys' : ((setEntry key v done).map Prod.fst).Nodup := nodup_setEntry hkeys
      have hdone' : ProperEntries (setEntry key v done) :=
        hdone.setEntry (proper_of_value fuel _ hvalue)
      dsimp only at hread
      split at hread
      next =>
        obtain ⟨rfl, -⟩ : setEntry key v done = read ∧ _ = rest := by
          simpa [pure, Except.pure] using hread
        exact ⟨hkeys', hdone'⟩
      next => exact proper_of_entries fuel _ _ hkeys' hdone' hread
      next => simp [throw, throwThe, MonadExceptOf.throw] at hread
    next => simp [throw, throwThe, MonadExceptOf.throw] at hread
  next => simp at hread

end

end Reader

theorem proper_of_ofText {text : String} {v : Json} (hread : ofText text = .ok v) :
    v.Proper := by
  unfold ofText at hread
  obtain ⟨⟨found, rest⟩, hvalue, hread⟩ := exists_of_bind_ok hread
  dsimp only at hread
  split at hread
  next =>
    obtain rfl : found = v := by simpa [pure, Except.pure] using hread
    exact Reader.proper_of_value _ _ hvalue
  next => simp [throw, throwThe, MonadExceptOf.throw] at hread

end Json
end ApiBindings
