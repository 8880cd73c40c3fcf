import ApiBindings.Java.Check
import ApiBindings.Java.Comment
import ApiBindings.Proofs.Text.Lines
import Mathlib.Data.List.Chain
/-!
# Documentation stays in its comments

The end of a comment is escaped line by line before notes and code spans are marked up, and
what marks them neither is nor completes such an end.  So a documentation comment closes
with its last two characters and not before, whatever its text says.  The check of Java text
takes the same two characters for the end of a comment: it skips each documentation comment
as a whole, and counts the braces of the code alone.
-/

namespace ApiBindings

namespace Text

theorem join_cons (separator first : Text) (rest : List Text) :
    join separator (first :: rest) = first ++ rest.flatMap fun part => separator ++ part := by
  induction rest generalizing first with
  | nil => simp [join, List.intercalate]
  | cons second rest ih =>
      have hstep : join separator (first :: second :: rest) =
          first ++ (separator ++ join separator (second :: rest)) := by
        simp [join, List.intercalate]
      rw [hstep, ih, List.flatMap_cons, List.append_assoc]

end Text

namespace Java

/-! ## Texts that close no comment -/

/-- The end of a comment stands nowhere in a text. -/
def NeverCloses (text : Text) : Prop :=
  text.IsChain fun a b => a = .char '*' → b ≠ .char '/'

instance (text : Text) : Decidable (NeverCloses text) :=
  inferInstanceAs (Decidable (List.IsChain _ text))

/-- A text that closes no comment, nor does anything together with what is around it. -/
structure IsInert (text : Text) : Prop where
  inner : NeverCloses text
  nonempty : text ≠ []
  head : text.head? ≠ some (.char '/')
  last : text.getLast? ≠ some (.char '*')

theorem NeverCloses.append {a b : Text} (ha : NeverCloses a) (hb : NeverCloses b)
    (hborder : a.getLast? ≠ some (.char '*') ∨ b.head? ≠ some (.char '/')) :
    NeverCloses (a ++ b) := by
  refine List.IsChain.append ha hb ?_
  intro x hx y hy hstar hslash
  rw [hstar] at hx
  rw [hslash] at hy
  rcases hborder with hlast | hhead
  · exact hlast hx
  · exact hhead hy

theorem neverCloses_cons {c : Code} {rest : Text} :
    NeverCloses (c :: rest) ↔
      (c = .char '*' → rest.head? ≠ some (.char '/')) ∧ NeverCloses rest := by
  unfold NeverCloses
  rw [List.isChain_cons]
  refine and_congr_left' ⟨fun h hstar hslash => h _ hslash hstar rfl, ?_⟩
  intro h y hy hstar hslash
  rw [hslash] at hy
  exact h hstar hy

theorem neverCloses_of_not_mem {text : Text} (hslash : .char '/' ∉ text) : NeverCloses text := by
  induction text with
  | nil => exact .nil
  | cons c rest ih =>
      have hrest : .char '/' ∉ rest := fun h => hslash (List.mem_cons_of_mem c h)
      refine neverCloses_cons.mpr ⟨fun _ hhead => ?_, ih hrest⟩
      exact hrest (List.mem_of_head? hhead)

/-- Replacing closes no comment if all that is put in is inert, and what stays does not close
one before anything is replaced. -/
theorem neverCloses_replaceFrom {pattern : Text.Pattern} {replace : Text → Text}
    (Holds : Text → Prop) (htail : ∀ c rest, Holds (c :: rest) → Holds rest)
    (hkeep : ∀ c rest, Holds (c :: rest) → (∀ length, pattern (c :: rest) ≠ some (length + 1)) →
      c = .char '*' → rest.head? ≠ some (.char '/'))
    (hreplace : ∀ text length, Holds text → pattern text = some (length + 1) →
      IsInert (replace (text.take (length + 1))))
    {text : Text} (htext : Holds text) (skip : Nat) :
    NeverCloses (Text.replaceFrom pattern replace skip text) ∧
      (skip = 0 → (Text.replaceFrom pattern replace skip text).head? = some (.char '/') →
        text.head? = some (.char '/')) := by
  induction text generalizing skip with
  | nil => cases skip <;> exact ⟨.nil, fun _ h => nomatch h⟩
  | cons c rest ih =>
      cases skip with
      | succ skip => exact ⟨(ih (htail c rest htext) skip).1, fun h => nomatch h⟩
      | zero =>
          rw [Text.replaceFrom]
          split
          next length hfound =>
            have hinert := hreplace (c :: rest) length htext hfound
            constructor
            · exact hinert.inner.append (ih (htail c rest htext) length).1 (.inl hinert.last)
            · intro _ hhead
              rw [List.head?_append_of_ne_nil _ hinert.nonempty] at hhead
              exact absurd hhead hinert.head
          next hnone =>
            obtain ⟨hrest, hfirst⟩ := ih (htail c rest htext) 0
            constructor
            · refine neverCloses_cons.mpr ⟨fun hstar hhead => ?_, hrest⟩
              exact hkeep c rest htext hnone hstar (hfirst rfl hhead)
            · exact fun _ hhead => hhead

/-- The same for a text that closes no comment itself. -/
theorem NeverCloses.replaceFrom {pattern : Text.Pattern} {replace : Text → Text}
    (hreplace : ∀ text length, NeverCloses text → pattern text = some (length + 1) →
      IsInert (replace (text.take (length + 1))))
    {text : Text} (htext : NeverCloses text) :
    NeverCloses (Text.replaceFrom pattern replace 0 text) := by
  have htail : ∀ c rest, NeverCloses (c :: rest) → NeverCloses rest :=
    fun c rest h => (neverCloses_cons.mp h).2
  refine (neverCloses_replaceFrom NeverCloses htail ?_ hreplace htext 0).1
  exact fun c rest h _ => (neverCloses_cons.mp h).1

/-! ## One line -/

theorem neverCloses_escaped (line : Text) :
    NeverCloses (Text.replaceWord "*/" "*\\/" line) := by
  refine (neverCloses_replaceFrom (fun _ => True) (fun _ _ _ => trivial) ?_ ?_ trivial 0).1
  · intro c rest _ hnone hstar hhead
    cases rest with
    | nil => cases hhead
    | cons next rest =>
        obtain rfl : next = .char '/' := Option.some.inj hhead
        subst hstar
        exact hnone 1 rfl
  · intro _ _ _ _
    exact ⟨by decide, by decide, by decide, by decide⟩

theorem isInert_markCode {text : Text} (htext : NeverCloses text) (length : Nat) :
    IsInert (markCode (text.take length)) := by
  have hbody : NeverCloses (text.take length).tail.dropLast :=
    ((List.IsChain.take htext length).tail).dropLast
  have hopened : NeverCloses (("\x7b@code " : Text) ++ (text.take length).tail.dropLast) :=
    NeverCloses.append (by decide) hbody (.inl (by decide))
  constructor
  · exact hopened.append (by decide) (.inr (by decide))
  · exact List.append_ne_nil_of_right_ne_nil _ (by decide)
  · unfold markCode
    rw [List.append_assoc, List.head?_append_of_ne_nil _ (by decide)]
    decide
  · unfold markCode
    rw [List.getLast?_append_of_ne_nil _ (by decide)]
    decide

theorem neverCloses_commentLine (indent line : Text) : NeverCloses (commentLine indent line) := by
  unfold commentLine
  apply NeverCloses.replaceFrom
  · exact fun _ length htext _ => isInert_markCode htext (length + 1)
  · apply NeverCloses.replaceFrom
    · exact fun _ _ _ _ => ⟨by decide, by decide, by decide, by decide⟩
    · exact neverCloses_escaped _

/-! ## A whole comment -/

theorem neverCloses_lines {lines : List Text} (hlines : ∀ line ∈ lines, NeverCloses line) :
    NeverCloses (lines.flatMap fun line => .char '\n' :: line) := by
  induction lines with
  | nil => exact .nil
  | cons line lines ih =>
      obtain ⟨hline, hlines⟩ := List.forall_mem_cons.mp hlines
      rw [List.flatMap_cons]
      refine NeverCloses.append (neverCloses_cons.mpr ⟨nofun, hline⟩) (ih hlines) (.inr ?_)
      cases lines <;> exact nofun

/-- A documentation comment between its opening and its closing. -/
theorem exists_body_of_docComment {text : Text} (htext : text ≠ []) {indent : Text}
    (hindent : ∀ c ∈ indent, c = .char ' ') :
    ∃ body, docComment text indent =
        indent ++ .char '/' :: .char '*' :: (body ++ [.char '*', .char '/']) ∧
      body.head? = some (.char '*') ∧ NeverCloses (body ++ [.char '*']) := by
  have hspaces : NeverCloses (indent ++ [.char ' ', .char '*']) := by
    apply neverCloses_of_not_mem
    intro hmem
    rcases List.mem_append.mp hmem with hspace | hstar
    · exact nomatch hindent _ hspace
    · exact absurd hstar (by decide)
  have hlines : ∀ line ∈ (Text.pieces '\n' text).map (commentLine indent) ++
      [indent ++ [.char ' ', .char '*']], NeverCloses line := by
    intro line hline
    rcases List.mem_append.mp hline with hpiece | hlast
    · obtain ⟨piece, -, rfl⟩ := List.mem_map.mp hpiece
      exact neverCloses_commentLine indent piece
    · rw [List.mem_singleton.mp hlast]
      exact hspaces
  have hinner := neverCloses_lines hlines
  rw [List.flatMap_append, List.flatMap_singleton] at hinner
  refine ⟨.char '*' :: ((Text.pieces '\n' text).map (commentLine indent)).flatMap
    (fun line => .char '\n' :: line) ++ .char '\n' :: (indent ++ [.char ' ']), ?_, rfl, ?_⟩
  · unfold docComment
    rw [if_neg (by simpa using htext)]
    dsimp only
    rw [List.cons_append, Text.join_cons, List.flatMap_append]
    simp [Text.ofString, Text.ofChars]
  · have hbody : NeverCloses (.char '*' :: (((Text.pieces '\n' text).map
        (commentLine indent)).flatMap (fun line => .char '\n' :: line) ++
          .char '\n' :: (indent ++ [.char ' ', .char '*']))) := by
      refine neverCloses_cons.mpr ⟨fun _ => ?_, hinner⟩
      cases (Text.pieces '\n' text).map (commentLine indent) <;> exact nofun
    simpa using hbody

/-- Nothing before the last two characters of such a text ends a comment. -/
theorem eq_nil_of_closes {front before after : Text}
    (hfront : NeverCloses (front ++ [.char '*']))
    (hsplit : front ++ [.char '*', .char '/'] = before ++ .char '*' :: .char '/' :: after) :
    after = [] := by
  rcases List.eq_nil_or_concat after with rfl | ⟨init, c, rfl⟩
  · rfl
  · have hsame : front ++ [.char '*'] ++ [.char '/'] =
        before ++ .char '*' :: .char '/' :: init ++ [c] := by
      simpa using hsplit
    have hinit := (List.append_inj' hsame rfl).1
    unfold NeverCloses at hfront
    rw [hinit, List.isChain_append_cons_cons] at hfront
    exact absurd rfl (hfront.2.1 rfl)

/-! ## What the check skips -/

theorem blockCommentRest_of_neverCloses {front : Text} (rest : Text)
    (hfront : NeverCloses (front ++ [.char '*'])) :
    blockCommentRest (front ++ .char '*' :: .char '/' :: rest) = some (front.length + 2) := by
  induction front with
  | nil => rfl
  | cons c front ih =>
      obtain ⟨hfirst, hrest⟩ := neverCloses_cons.mp hfront
      have hnot : ∀ tail, c = .char '*' →
          front ++ .char '*' :: .char '/' :: rest = .char '/' :: tail → False := by
        intro tail hstar hslash
        cases front with
        | nil => cases hslash
        | cons next front => exact hfirst hstar (by rw [(List.cons.inj hslash).1]; rfl)
      rw [List.cons_append, blockCommentRest.eq_3 _ _ hnot, ih hrest]
      rfl

theorem stripComments_append_of_not_mem {code : Text} (rest : Text) (hcode : .char '/' ∉ code) :
    stripComments (code ++ rest) = code ++ stripComments rest := by
  induction code with
  | nil => rfl
  | cons c code ih =>
      obtain ⟨hfirst, hrest⟩ := not_or.mp (mt List.mem_cons.mpr hcode)
      have hnone : comment (c :: (code ++ rest)) = none := by
        unfold comment
        split
        next heq => exact absurd (List.cons.inj heq).1.symm hfirst
        next heq => exact absurd (List.cons.inj heq).1.symm hfirst
        next => rfl
      unfold stripComments at ih ⊢
      rw [List.cons_append, Text.replaceFrom_kept hnone, ih hrest]
      rfl

theorem stripComments_of_not_mem {code : Text} (hcode : .char '/' ∉ code) :
    stripComments code = code := by
  have hall := stripComments_append_of_not_mem [] hcode
  simpa [stripComments, Text.replaceFrom] using hall

/-- A documentation comment is skipped up to its end, and its margin stays. -/
theorem stripComments_docComment {text : Text} (htext : text ≠ []) {indent : Text}
    (hindent : ∀ c ∈ indent, c = .char ' ') (rest : Text) :
    stripComments (docComment text indent ++ rest) = indent ++ stripComments rest := by
  obtain ⟨body, hblock, -, hbody⟩ := exists_body_of_docComment htext hindent
  have hspaces : .char '/' ∉ indent := fun hmem => nomatch hindent _ hmem
  have hfound : comment (.char '/' :: (.char '*' :: (body ++ [.char '*', .char '/'])) ++ rest) =
      some ((.char '*' :: (body ++ [.char '*', .char '/']) : Text).length + 1) := by
    have hend := blockCommentRest_of_neverCloses rest hbody
    simp [comment, hend]
  rw [hblock, List.append_assoc, stripComments_append_of_not_mem _ hspaces]
  unfold stripComments
  rw [Text.replaceFrom_found hfound]
  rfl

/-! ## Code with documentation in it -/

/-- A part of a Java text: code, or a documentation comment with its margin. -/
inductive Part where
  | code (text : Text)
  | doc (text indent : Text)

namespace Part

def text : Part → Text
  | code text => text
  | doc text indent => docComment text indent

/-- The code of a part. -/
def codeText : Part → Text
  | code text => text
  | doc _ _ => []

/-- What is left of a part without its comment. -/
def stripped : Part → Text
  | code text => text
  | doc _ indent => indent

/-- Code has no slashes; a comment says something and is indented by spaces. -/
def IsPlain : Part → Prop
  | code text => .char '/' ∉ text
  | doc text indent => text ≠ [] ∧ ∀ c ∈ indent, c = .char ' '

instance : (part : Part) → Decidable part.IsPlain
  | code text => inferInstanceAs (Decidable (.char '/' ∉ text))
  | doc text indent => inferInstanceAs (Decidable (text ≠ [] ∧ ∀ c ∈ indent, c = .char ' '))

end Part

/-- How many braces the check finds, those that open and those that close. -/
def braces (text : Text) : Nat × Nat :=
  ((stripComments text).count (.char '\x7b'), (stripComments text).count (.char '\x7d'))

/-- The end of a comment stands at the end of a text and nowhere else. -/
def ClosesAtEnd (text : Text) : Prop :=
  (∃ front, text = front ++ [.char '*', .char '/']) ∧
    ∀ before after, text = before ++ .char '*' :: .char '/' :: after → after = []

theorem closesAtEnd_docComment {text : Text} (htext : text ≠ []) {indent : Text}
    (hindent : ∀ c ∈ indent, c = .char ' ') : ClosesAtEnd (docComment text indent) := by
  obtain ⟨body, hblock, hhead, hbody⟩ := exists_body_of_docComment htext hindent
  have hspaces : NeverCloses indent :=
    neverCloses_of_not_mem fun hmem => nomatch hindent _ hmem
  have hopened : NeverCloses (.char '/' :: .char '*' :: (body ++ [.char '*'])) := by
    refine neverCloses_cons.mpr ⟨nofun, neverCloses_cons.mpr ⟨fun _ hslash => ?_, hbody⟩⟩
    cases body with
    | nil => cases hhead
    | cons c body => exact nomatch hhead.symm.trans hslash
  have hfront : NeverCloses (indent ++ .char '/' :: .char '*' :: body ++ [.char '*']) := by
    have hall := hspaces.append hopened ?_
    · simpa using hall
    · left
      intro hlast
      exact nomatch hindent _ (List.mem_of_getLast? hlast)
  have hsplit : docComment text indent =
      (indent ++ .char '/' :: .char '*' :: body) ++ [.char '*', .char '/'] := by
    rw [hblock]
    simp
  refine ⟨⟨_, hsplit⟩, fun before after heq => ?_⟩
  rw [hsplit] at heq
  exact eq_nil_of_closes hfront heq

variable {parts : List Part}

theorem stripComments_parts (hplain : ∀ part ∈ parts, part.IsPlain) :
    stripComments (parts.flatMap Part.text) = parts.flatMap Part.stripped := by
  induction parts with
  | nil => rfl
  | cons part rest ih =>
      obtain ⟨hpart, hrest⟩ := List.forall_mem_cons.mp hplain
      rw [List.flatMap_cons, List.flatMap_cons, ← ih hrest]
      cases part with
      | code text => exact stripComments_append_of_not_mem _ hpart
      | doc text indent => exact stripComments_docComment hpart.1 hpart.2 _

theorem not_mem_codeText (hplain : ∀ part ∈ parts, part.IsPlain) :
    .char '/' ∉ parts.flatMap Part.codeText := by
  intro hmem
  obtain ⟨part, hpart, hslash⟩ := List.mem_flatMap.mp hmem
  cases part with
  | code text => exact hplain _ hpart hslash
  | doc text indent => cases hslash

/-- What is no space is in the code if it is outside comments. -/
theorem count_stripped (hplain : ∀ part ∈ parts, part.IsPlain) {c : Code} (hc : c ≠ .char ' ') :
    (parts.flatMap Part.stripped).count c = (parts.flatMap Part.codeText).count c := by
  induction parts with
  | nil => rfl
  | cons part rest ih =>
      obtain ⟨hpart, hrest⟩ := List.forall_mem_cons.mp hplain
      rw [List.flatMap_cons, List.flatMap_cons, List.count_append, List.count_append, ih hrest]
      cases part with
      | code text => rfl
      | doc text indent =>
          have hnone : c ∉ indent := fun hmem => hc (hpart.2 c hmem)
          rw [Part.stripped, List.count_eq_zero_of_not_mem hnone]
          rfl

theorem braces_parts (hplain : ∀ part ∈ parts, part.IsPlain) :
    braces (parts.flatMap Part.text) = braces (parts.flatMap Part.codeText) := by
  have hstripped := stripComments_parts hplain
  have hcode := stripComments_of_not_mem (not_mem_codeText hplain)
  unfold braces
  rw [hstripped, hcode, count_stripped hplain (by decide), count_stripped hplain (by decide)]

theorem braces_eq_of_defect?_none {text : Text} (hfine : defect? text = none) :
    (braces text).1 = (braces text).2 := by
  unfold defect? at hfine
  split at hfine
  next => cases hfine
  next =>
    split at hfine
    next => cases hfine
    next =>
      dsimp only at hfine
      split at hfine
      next heq => exact heq
      next => cases hfine

theorem braces_of_defect? {text : Text} {opening closing : Nat}
    (hdefect : defect? text = some (.unbalancedBraces opening closing)) :
    braces text = (opening, closing) ∧ opening ≠ closing := by
  unfold defect? at hdefect
  split at hdefect
  next => cases hdefect
  next =>
    split at hdefect
    next => cases hdefect
    next =>
      dsimp only at hdefect
      split at hdefect
      next => cases hdefect
      next hne =>
        cases hdefect
        exact ⟨rfl, hne⟩

/-- Whatever documentation stands between code without slashes, it stays in its comments: each
of these closes at its end only, and the check finds the braces of the code alone. -/
theorem documentation_contained (hplain : ∀ part ∈ parts, part.IsPlain) :
    (∀ text indent, Part.doc text indent ∈ parts → ClosesAtEnd (docComment text indent)) ∧
    braces (parts.flatMap Part.text) = braces (parts.flatMap Part.codeText) ∧
    (defect? (parts.flatMap Part.text) = none →
      (braces (parts.flatMap Part.codeText)).1 = (braces (parts.flatMap Part.codeText)).2) ∧
    ∀ opening closing,
      defect? (parts.flatMap Part.text) = some (.unbalancedBraces opening closing) →
        braces (parts.flatMap Part.codeText) = (opening, closing) ∧ opening ≠ closing := by
  have hbraces := braces_parts hplain
  refine ⟨fun text indent hmem => ?_, hbraces, fun hfine => ?_, fun opening closing hdefect => ?_⟩
  · obtain ⟨htext, hindent⟩ := hplain _ hmem
    exact closesAtEnd_docComment htext hindent
  · rw [← hbraces]
    exact braces_eq_of_defect?_none hfine
  · rw [← hbraces]
    exact braces_of_defect? hdefect

/-- A class with an end of a comment, a note, a code span and braces in its documentation. -/
def documentedParts : List Part :=
  [.code "package p;\n", .doc "*/ NOTE: `*/ \x7d`\n/ \x7b" "  ", .code "\nclass C \x7b \x7d\n"]

theorem documentation_contained_documentedParts :
    (∀ part ∈ documentedParts, part.IsPlain) ∧
    defect? (documentedParts.flatMap Part.text) = none ∧
    (∀ text indent, Part.doc text indent ∈ documentedParts →
      ClosesAtEnd (docComment text indent)) ∧
    braces (documentedParts.flatMap Part.text) = braces (documentedParts.flatMap Part.codeText) ∧
    (braces (documentedParts.flatMap Part.codeText)).1 =
      (braces (documentedParts.flatMap Part.codeText)).2 := by
  have hplain : ∀ part ∈ documentedParts, part.IsPlain := by decide
  have hfine : defect? (documentedParts.flatMap Part.text) = none := by decide +kernel
  obtain ⟨hcloses, hbraces, hbalanced, -⟩ := documentation_contained hplain
  exact ⟨hplain, hfine, hcloses, hbraces, hbalanced hfine⟩

end Java
end ApiBindings
