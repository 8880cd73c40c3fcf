import ApiBindings.Text.Blank
import ApiBindings.Text.Replace
import Mathlib.Data.List.TakeWhile
/-!
# Lines of a text that is replaced in

Patterns that begin with a newline take lines out of a text, or what stands in front of them.
So what is left of a line may be joined to the line before, and a property of all lines stays
only if it stays when lines are put one after the other.
-/

namespace ApiBindings
namespace Text

variable {pattern : Pattern} {replacement found line rest text : Text}
  {first later good plain : Text → Prop}

/-! ## Replacing -/

theorem replaceFrom_skip (pattern : Pattern) (replace : Text → Text) (skipped rest : Text) :
    replaceFrom pattern replace skipped.length (skipped ++ rest) =
      replaceFrom pattern replace 0 rest := by
  induction skipped with
  | nil => rfl
  | cons c skipped ih => exact ih

theorem replaceFrom_found {pattern : Pattern} {replace : Text → Text} {c : Code}
    {found rest : Text} (hfound : pattern (c :: found ++ rest) = some (found.length + 1)) :
    replaceFrom pattern replace 0 (c :: found ++ rest) =
      replace (c :: found) ++ replaceFrom pattern replace 0 rest := by
  have htaken : (c :: found ++ rest).take (found.length + 1) = c :: found := by simp
  rw [List.cons_append] at hfound htaken ⊢
  simp only [replaceFrom, hfound]
  rw [htaken, replaceFrom_skip]

theorem replaceFrom_kept {pattern : Pattern} {replace : Text → Text} {c : Code} {rest : Text}
    (hkept : pattern (c :: rest) = none) :
    replaceFrom pattern replace 0 (c :: rest) = c :: replaceFrom pattern replace 0 rest := by
  simp only [replaceFrom, hkept]

theorem replacePattern_found (hnonempty : found ≠ [])
    (hfound : pattern (found ++ rest) = some found.length) :
    replacePattern pattern replacement (found ++ rest) =
      replacement ++ replacePattern pattern replacement rest := by
  obtain ⟨c, others, rfl⟩ := List.exists_cons_of_ne_nil hnonempty
  exact replaceFrom_found hfound

theorem replacePattern_kept {c : Code} (hkept : pattern (c :: rest) = none) :
    replacePattern pattern replacement (c :: rest) =
      c :: replacePattern pattern replacement rest :=
  replaceFrom_kept hkept

/-! ## Lines -/

theorem pieces_eq_splitOn (separator : Char) (text : Text) :
    pieces separator text = text.splitOn (.char separator) := by
  induction text with
  | nil => rfl
  | cons c rest ih =>
      rw [List.splitOn_cons_eq_if_modifyHead, pieces, ih]
      refine ite_congr (by simp) (fun _ => rfl) fun _ => ?_
      cases hpieces : rest.splitOn (.char separator) with
      | nil =>
          rw [List.splitOn_eq_splitOnP] at hpieces
          exact absurd hpieces (List.splitOnP_ne_nil _ _)
      | cons piece others => rfl

theorem pieces_line (hline : .char '\n' ∉ line) : pieces '\n' line = [line] := by
  rw [pieces_eq_splitOn, List.splitOn_eq_singleton hline]

theorem pieces_more (hline : .char '\n' ∉ line) (rest : Text) :
    pieces '\n' (line ++ .char '\n' :: rest) = line :: pieces '\n' rest := by
  rw [pieces_eq_splitOn, pieces_eq_splitOn, List.splitOn_append_cons_self_of_not_mem hline]

/-- A text is a line, or a line before a shorter text. -/
theorem line_induction {motive : Text → Prop}
    (one : ∀ line, .char '\n' ∉ line → motive line)
    (more : ∀ line rest, .char '\n' ∉ line →
      (∀ shorter : Text, shorter.length ≤ rest.length → motive shorter) →
        motive (line ++ .char '\n' :: rest)) (text : Text) : motive text := by
  induction hlength : text.length using Nat.strongRecOn generalizing text with
  | _ length ih =>
      subst hlength
      by_cases hnewline : .char '\n' ∈ text
      · obtain ⟨line, rest, rfl, hline⟩ := List.eq_append_cons_of_mem hnewline
        refine more line rest hline fun shorter hshorter => ih _ ?_ shorter rfl
        rw [List.length_append, List.length_cons]
        omega
      · exact one text hnewline

/-- The first line of a text is of one kind, and each later line of another. -/
structure LinesAre (first later : Text → Prop) (text : Text) : Prop where
  first : ∀ line ∈ (pieces '\n' text).head?, first line
  later : ∀ line ∈ (pieces '\n' text).tail, later line

theorem linesAre_line (hline : .char '\n' ∉ line) : LinesAre first later line ↔ first line := by
  have hpieces := pieces_line hline
  constructor
  · intro h
    exact h.first line (by simp [hpieces])
  · intro h
    constructor
    · simpa [hpieces] using h
    · simp [hpieces]

theorem linesAre_more (hline : .char '\n' ∉ line) :
    LinesAre first later (line ++ .char '\n' :: rest) ↔
      first line ∧ LinesAre later later rest := by
  have hpieces := pieces_more hline rest
  constructor
  · intro h
    refine ⟨h.first line (by simp [hpieces]), ?_, ?_⟩
    · intro other hother
      exact h.later other (by simpa [hpieces] using List.mem_of_mem_head? hother)
    · intro other hother
      exact h.later other (by simpa [hpieces] using List.mem_of_mem_tail hother)
  · rintro ⟨hfirst, hrest⟩
    constructor
    · simpa [hpieces] using hfirst
    · intro other hother
      rw [hpieces, List.tail_cons] at hother
      cases hothers : pieces '\n' rest with
      | nil => simp [hothers] at hother
      | cons head others =>
          rw [hothers] at hother
          rcases List.mem_cons.mp hother with rfl | hmem
          · exact hrest.first other (by simp [hothers])
          · exact hrest.later other (by simpa [hothers] using hmem)

theorem LinesAre.mono {first' later' : Text → Prop} (htext : LinesAre first later text)
    (hfirst : ∀ line, first line → first' line) (hlater : ∀ line, later line → later' line) :
    LinesAre first' later' text :=
  ⟨fun line hline => hfirst line (htext.first line hline),
    fun line hline => hlater line (htext.later line hline)⟩

/-- What stands in front of a text is part of its first line. -/
theorem linesAre_append (hline : .char '\n' ∉ line) (text : Text) :
    LinesAre first later (line ++ text) ↔
      LinesAre (fun other => first (line ++ other)) later text := by
  induction text using line_induction with
  | one other hother =>
      have hboth : .char '\n' ∉ line ++ other := by simp [hline, hother]
      rw [linesAre_line hboth, linesAre_line hother]
  | more other rest hother _ =>
      have hboth : .char '\n' ∉ line ++ other := by simp [hline, hother]
      rw [← List.append_assoc, linesAre_more hboth, linesAre_more hother]

theorem LinesAre.exists_first (htext : LinesAre first later text) : ∃ line, first line := by
  induction text using line_induction with
  | one line hline => exact ⟨line, (linesAre_line hline).mp htext⟩
  | more line rest hline _ => exact ⟨line, ((linesAre_more hline).mp htext).1⟩

/-- Lines of a kind stay of it when they are put one after the other. -/
structure Joinable (plain : Text → Prop) : Prop where
  empty : plain []
  append : ∀ a b, plain a → plain b → plain (a ++ b)

theorem Joinable.linesAre_nil (hplain : Joinable plain) : LinesAre plain plain [] :=
  (linesAre_line (by simp)).mpr hplain.empty

theorem Joinable.linesAre_newline (hplain : Joinable plain)
    (htext : LinesAre plain plain text) : LinesAre plain plain (.char '\n' :: text) :=
  (linesAre_more List.not_mem_nil).mpr ⟨hplain.empty, htext⟩

theorem LinesAre.append {front : Text} (hplain : Joinable plain)
    (hfront : LinesAre plain plain front) (htext : LinesAre plain plain text) :
    LinesAre plain plain (front ++ text) := by
  induction front using line_induction with
  | one line hline =>
      rw [linesAre_line hline] at hfront
      rw [linesAre_append hline]
      exact htext.mono (fun other => hplain.append line other hfront) fun _ => id
  | more line rest hline ih =>
      rw [linesAre_more hline] at hfront
      rw [List.append_assoc, List.cons_append, linesAre_more hline]
      exact ⟨hfront.1, ih rest (Nat.le_refl _) hfront.2⟩

/-- Behind every newline stands a later line. -/
theorem LinesAre.behind {front : Text}
    (htext : LinesAre first later (front ++ .char '\n' :: text)) : LinesAre later later text := by
  induction front using line_induction generalizing first with
  | one line hline => exact ((linesAre_more hline).mp htext).2
  | more line rest hline ih =>
      rw [List.append_assoc, List.cons_append, linesAre_more hline] at htext
      exact ih rest (Nat.le_refl _) htext.2

/-! ## Replacing at the starts of lines -/

/-- Replacing a pattern makes plain lines from good ones.  An occurrence begins with a newline;
what is behind it need only be a plain line, since it is joined to the line before. -/
structure IsPass (good plain : Text → Prop) (pattern : Pattern) (replacement : Text) : Prop where
  start : ∀ c rest, c ≠ .char '\n' → pattern (c :: rest) = none
  found : ∀ rest length, pattern (.char '\n' :: rest) = some length →
    ∃ skipped left, rest = skipped ++ left ∧ length = skipped.length + 1 ∧
      (LinesAre good good rest → LinesAre plain good left)
  replacement : LinesAre plain plain replacement
  weaken : ∀ line, good line → plain line
  joinable : Joinable plain

theorem IsPass.replacePattern_line (hpass : IsPass good plain pattern replacement)
    (hline : .char '\n' ∉ line) (rest : Text) :
    replacePattern pattern replacement (line ++ rest) =
      line ++ replacePattern pattern replacement rest := by
  induction line with
  | nil => rfl
  | cons c line ih =>
      obtain ⟨hc, hline⟩ := not_or.mp (mt List.mem_cons.mpr hline)
      rw [List.cons_append, replacePattern_kept (hpass.start c _ (Ne.symm hc)), ih hline]
      rfl

/-- The first line may be of a kind of its own, if it stays of it when others are joined to it. -/
theorem IsPass.linesAre (hpass : IsPass good plain pattern replacement)
    (hfirst : ∀ a b, first a → plain b → first (a ++ b)) (htext : LinesAre first good text) :
    LinesAre first plain (replacePattern pattern replacement text) := by
  induction text using line_induction generalizing first with
  | one line hline =>
      have hsame : replacePattern pattern replacement line = line := by
        simpa [replacePattern, replaceFrom] using hpass.replacePattern_line hline []
      rw [hsame, linesAre_line hline]
      exact (linesAre_line hline).mp htext
  | more line rest hline ih =>
      obtain ⟨hhead, hrest⟩ := (linesAre_more hline).mp htext
      rw [hpass.replacePattern_line hline]
      cases hpattern : pattern (.char '\n' :: rest) with
      | none =>
          have hweakened := hrest.mono hpass.weaken fun _ => id
          rw [replacePattern_kept hpattern, linesAre_more hline]
          exact ⟨hhead, ih rest (Nat.le_refl _) hpass.joinable.append hweakened⟩
      | some length =>
          obtain ⟨skipped, left, rfl, rfl, hleft⟩ := hpass.found rest length hpattern
          have hfound : replacePattern pattern replacement (.char '\n' :: skipped ++ left) = _ :=
            replacePattern_found (List.cons_ne_nil _ _) hpattern
          have hshorter : left.length ≤ (skipped ++ left).length := by
            rw [List.length_append]
            omega
          -- The newline is taken too, so what is put in and what is left join the line before.
          have hbehind := ih left hshorter hpass.joinable.append (hleft hrest)
          rw [← List.cons_append, hfound, linesAre_append hline]
          exact (hpass.replacement.append hpass.joinable hbehind).mono
            (fun other => hfirst line other hhead) fun _ => id

theorem IsPass.laterLines (hpass : IsPass good plain pattern replacement)
    (htext : LinesAre (fun _ => True) good text) :
    LinesAre (fun _ => True) plain (replacePattern pattern replacement text) :=
  hpass.linesAre (fun _ _ _ _ => trivial) htext

/-! ## Words at the starts of lines -/

variable {w : Text} {length : Nat}

theorem isPrefixOf_of_ne {c : Code} (hc : c ≠ .char '\n') :
    (.char '\n' :: w).isPrefixOf (c :: rest) = false := by
  rw [List.isPrefixOf_cons_cons, beq_false_of_ne hc.symm, Bool.false_and]

theorem exists_of_isPrefixOf (hstarts : (.char '\n' :: w).isPrefixOf (.char '\n' :: rest)) :
    ∃ left, rest = w ++ left := by
  obtain ⟨left, hleft⟩ := List.isPrefixOf_iff_prefix.mp hstarts
  exact ⟨left, (List.cons.inj hleft).2.symm⟩

theorem exists_of_word (hfound : word (.char '\n' :: w) (.char '\n' :: rest) = some length) :
    ∃ left, rest = w ++ left ∧ length = w.length + 1 := by
  unfold word at hfound
  split_ifs at hfound with hstarts
  obtain ⟨left, rfl⟩ := exists_of_isPrefixOf hstarts
  exact ⟨left, rfl, (Option.some.inj hfound).symm⟩

/-- A word with the rest of its line stands before the end of the line or of the text. -/
theorem exists_of_wordAndLine
    (hfound : wordAndLine (.char '\n' :: w) (.char '\n' :: rest) = some length) :
    ∃ line left, rest = w ++ line ++ left ∧ .char '\n' ∉ line ∧
      length = (w ++ line).length + 1 ∧ (left = [] ∨ ∃ more, left = .char '\n' :: more) := by
  unfold wordAndLine at hfound
  split_ifs at hfound with hstarts
  obtain ⟨tail, rfl⟩ := exists_of_isPrefixOf hstarts
  have hdrop : (.char '\n' :: (w ++ tail)).drop (.char '\n' :: w).length = tail := by simp
  rw [hdrop] at hfound
  dsimp only at hfound
  split_ifs at hfound
  refine ⟨tail.takeWhile (· ≠ .char '\n'), tail.dropWhile (· ≠ .char '\n'), ?_, ?_, ?_, ?_⟩
  · rw [List.append_assoc, List.takeWhile_append_dropWhile]
  · intro hmem
    simpa using List.mem_takeWhile_imp hmem
  · rw [← Option.some.inj hfound, List.length_append, List.length_cons]
    omega
  · have hhead := List.head?_dropWhile_not (· ≠ .char '\n') tail
    cases hleft : tail.dropWhile (· ≠ .char '\n') with
    | nil => exact .inl rfl
    | cons c more =>
        rw [hleft] at hhead
        obtain rfl : c = .char '\n' := by simpa using hhead
        exact .inr ⟨more, rfl⟩

/-- A word that ends its line is taken out with it. -/
theorem isPass_word (hplain : Joinable plain) (hreplacement : LinesAre plain plain replacement) :
    IsPass plain plain (word (.char '\n' :: (w ++ [.char '\n']))) replacement where
  start c rest hc := by simp [word, isPrefixOf_of_ne hc]
  found rest length hfound := by
    obtain ⟨left, rfl, rfl⟩ := exists_of_word hfound
    refine ⟨_, left, rfl, rfl, fun hrest => ?_⟩
    rw [List.append_assoc] at hrest
    exact hrest.behind
  replacement := hreplacement
  weaken _ := id
  joinable := hplain

/-- A line that begins with a word is taken out whole. -/
theorem isPass_wordAndFullLine (hplain : Joinable plain)
    (hreplacement : LinesAre plain plain replacement) :
    IsPass plain plain (wordAndFullLine (.char '\n' :: w)) replacement where
  start c rest hc := by simp [wordAndFullLine, wordAndLine, isPrefixOf_of_ne hc]
  found rest length hfound := by
    unfold wordAndFullLine at hfound
    split at hfound
    next before hbefore =>
      split_ifs at hfound with hnewline
      obtain ⟨line, left, rfl, -, rfl, -⟩ := exists_of_wordAndLine hbefore
      have hdrop : (.char '\n' :: (w ++ line ++ left)).drop ((w ++ line).length + 1) = left := by
        rw [List.drop_succ_cons, List.drop_left]
      rw [hdrop] at hnewline
      obtain ⟨more, rfl⟩ := List.head?_eq_some_iff.mp hnewline
      refine ⟨w ++ line ++ [.char '\n'], more, by simp, ?_, LinesAre.behind⟩
      rw [← Option.some.inj hfound]
      simp only [List.length_append, List.length_cons, List.length_nil]
    next => cases hfound
  replacement := hreplacement
  weaken _ := id
  joinable := hplain

/-- A line that begins with a word is emptied. -/
theorem isPass_wordAndLine (hplain : Joinable plain)
    (hreplacement : LinesAre plain plain replacement) :
    IsPass plain plain (wordAndLine (.char '\n' :: w)) replacement where
  start c rest hc := by simp [wordAndLine, isPrefixOf_of_ne hc]
  found rest length hfound := by
    obtain ⟨line, left, rfl, hline, rfl, hleft⟩ := exists_of_wordAndLine hfound
    refine ⟨w ++ line, left, rfl, rfl, fun hrest => ?_⟩
    rcases hleft with rfl | ⟨more, rfl⟩
    · exact (linesAre_line (by simp)).mpr hplain.empty
    · exact (linesAre_more List.not_mem_nil).mpr ⟨hplain.empty, hrest.behind⟩
  replacement := hreplacement
  weaken _ := id
  joinable := hplain

/-- A mark before a line is taken off. -/
theorem isPass_mark (hplain : Joinable plain) (hw : .char '\n' ∉ w)
    (hweaken : ∀ line, good line → plain line) (hmark : ∀ line, good (w ++ line) → plain line)
    (hreplacement : LinesAre plain plain replacement) :
    IsPass good plain (word (.char '\n' :: w)) replacement where
  start c rest hc := by simp [word, isPrefixOf_of_ne hc]
  found rest length hfound := by
    obtain ⟨left, rfl, rfl⟩ := exists_of_word hfound
    refine ⟨w, left, rfl, rfl, fun hrest => ?_⟩
    exact ((linesAre_append hw left).mp hrest).mono hmark fun _ => id
  replacement := hreplacement
  weaken := hweaken
  joinable := hplain

end Text
end ApiBindings
