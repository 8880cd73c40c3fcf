import ApiBindings.Java.Comment
import ApiBindings.Proofs.Text.Lines
import Mathlib.Data.List.Infix
/-!
# Code snippets in descriptions

A snippet stands between fences, with a newline before the first one and behind the second one.
The first step of the markup takes out every snippet that it comes to, together with both
newlines.  So of two snippets that share a newline the second one stays, and the steps behind
it can make a snippet of what was none, from a quoted one or from parts of lines.  None of this
happens when no line that is left, quoted or not, begins with a fence: then the snippets leave
no trace in the comment.
-/

namespace ApiBindings

namespace Java

variable {body text left rest : Text}

/-! ## Snippets -/

/-- What can stand between the fences of a snippet. -/
structure IsSnippetBody (body : Text) : Prop where
  nonempty : body ≠ []
  apart : ¬ ("``" : Text) <:+: body
  head : body.head? ≠ some (.char '`')
  last : body.getLast? ≠ some (.char '`')

instance (body : Text) : Decidable (IsSnippetBody body) :=
  decidable_of_iff (body ≠ [] ∧ ¬ ("``" : Text) <:+: body ∧ body.head? ≠ some (.char '`') ∧
      body.getLast? ≠ some (.char '`'))
    ⟨fun ⟨hnonempty, hapart, hhead, hlast⟩ => ⟨hnonempty, hapart, hhead, hlast⟩,
      fun hbody => ⟨hbody.nonempty, hbody.apart, hbody.head, hbody.last⟩⟩

/-- A code snippet with its fences and the newlines around them. -/
def snippet (body : Text) : Text :=
  "\n```" ++ body ++ "```\n"

theorem apart_cons {c : Code} :
    ¬ ("``" : Text) <:+: c :: body ↔
      (c = .char '`' → body.head? ≠ some (.char '`')) ∧ ¬ ("``" : Text) <:+: body := by
  have hstart : ("``" : Text) <+: c :: body ↔ c = .char '`' ∧ body.head? = some (.char '`') := by
    change [Code.char '`', Code.char '`'] <+: c :: body ↔ _
    cases body with
    | nil => simp
    | cons d body => simp [List.cons_prefix_cons, eq_comm]
  rw [List.infix_cons_iff, hstart, not_or, not_and]

theorem beforeBackticks_of_apart (rest : Text) (hapart : ¬ ("``" : Text) <:+: body)
    (hlast : body.getLast? ≠ some (.char '`')) :
    beforeBackticks (body ++ .char '`' :: .char '`' :: rest) = some body.length := by
  induction body with
  | nil => rfl
  | cons c body ih =>
      obtain ⟨hnext, hapart⟩ := apart_cons.mp hapart
      cases body with
      | nil =>
          have hc : c ≠ .char '`' := by simpa using hlast
          rw [List.singleton_append, beforeBackticks.eq_3 _ _ fun _ hsame => absurd hsame hc]
          rfl
      | cons d body =>
          have hrest := ih hapart (by simpa using hlast)
          rw [List.cons_append, beforeBackticks.eq_3, hrest]
          · rfl
          · intro tail hc hd
            exact hnext hc (by simpa using congrArg List.head? hd)

theorem exists_of_beforeBackticks {length : Nat} (hlength : beforeBackticks text = some length) :
    ∃ body rest, text = body ++ .char '`' :: .char '`' :: rest ∧ body.length = length ∧
      ¬ ("``" : Text) <:+: body ∧ body.getLast? ≠ some (.char '`') := by
  induction text generalizing length with
  | nil => simp [beforeBackticks] at hlength
  | cons c text ih =>
      rw [beforeBackticks.eq_def] at hlength
      split at hlength
      next heq => simp at heq
      next tail heq =>
        obtain rfl := Option.some.inj hlength
        have hapart : ¬ ("``" : Text) <:+: [] := by decide
        exact ⟨[], tail, heq, rfl, hapart, by decide⟩
      next head others hnone heq =>
        obtain ⟨rfl, rfl⟩ := List.cons.inj heq
        obtain ⟨before, hbefore, rfl⟩ := Option.map_eq_some_iff.mp hlength
        obtain ⟨body, rest, rfl, hcount, hapart, hlast⟩ := ih hbefore
        refine ⟨c :: body, rest, rfl, by simp [hcount], apart_cons.mpr ⟨?_, hapart⟩, ?_⟩
        · rintro rfl hhead
          obtain ⟨others, rfl⟩ := List.head?_eq_some_iff.mp hhead
          exact hnone _ rfl rfl
        · cases body with
          | nil =>
              rintro hc
              obtain rfl : c = .char '`' := by simpa using hc
              exact hnone _ rfl rfl
          | cons d body => simpa using hlast

theorem snippet_append (body rest : Text) :
    snippet body ++ rest = .char '\n' :: .char '`' :: .char '`' :: .char '`' ::
      (body ++ .char '`' :: .char '`' :: (("`\n" : Text) ++ rest)) := by
  unfold snippet
  rw [List.append_assoc, List.append_assoc]
  rfl

theorem length_snippet (body : Text) : (snippet body).length = body.length + 8 := by
  have hlength := congrArg List.length (snippet_append body [])
  rw [List.append_nil] at hlength
  rw [hlength]
  simp [Text.ofString, Text.ofChars]

/-- The pattern of fenced blocks finds every snippet. -/
theorem fencedBlock_snippet (hbody : IsSnippetBody body) (rest : Text) :
    fencedBlock (snippet body ++ rest) = some (snippet body).length := by
  obtain ⟨c, others, rfl⟩ := List.exists_cons_of_ne_nil hbody.nonempty
  have hbefore := beforeBackticks_of_apart (("`\n" : Text) ++ rest) hbody.apart hbody.last
  have hhead : c ≠ .char '`' := by simpa using hbody.head
  rw [length_snippet, snippet_append, fencedBlock, hbefore]
  simp [hhead, Text.ofString, Text.ofChars]

/-- It finds nothing else. -/
theorem exists_of_fencedBlock {length : Nat} (hfound : fencedBlock text = some length) :
    ∃ body rest, IsSnippetBody body ∧ text = snippet body ++ rest ∧
      length = (snippet body).length := by
  rw [fencedBlock.eq_def] at hfound
  split at hfound
  next inner =>
    split at hfound
    next count hbefore =>
      split_ifs at hfound with hfences
      obtain ⟨body, rest, rfl, hcount, hapart, hlast⟩ := exists_of_beforeBackticks hbefore
      obtain ⟨hhead, hclosing⟩ := hfences
      have hdrop : (body ++ .char '`' :: .char '`' :: rest).drop body.length =
          .char '`' :: .char '`' :: rest := List.drop_left
      rw [hcount] at hdrop
      rw [hdrop] at hclosing
      obtain ⟨more, hmore⟩ := List.isPrefixOf_iff_prefix.mp hclosing
      obtain rfl : ("`\n" : Text) ++ more = rest := (List.cons.inj (List.cons.inj hmore).2).2
      have hnonempty : body ≠ [] := List.ne_nil_of_length_eq_add_one hcount
      rw [List.head?_append_of_ne_nil _ hnonempty] at hhead
      exact ⟨body, more, ⟨hnonempty, hapart, hhead, hlast⟩, (snippet_append body more).symm,
        by rw [length_snippet, hcount, ← Option.some.inj hfound]⟩
    next => cases hfound
  next => cases hfound

theorem snippet_ne_nil (body : Text) : snippet body ≠ [] :=
  List.ne_nil_of_length_eq_add_one (length_snippet body)

/-! ## Taking snippets out -/

/-- What is left of a text when, from left to right, its snippets are taken out. -/
inductive TakenOut : Text → Text → Prop
  | nil : TakenOut [] []
  | taken {body rest left : Text} (hbody : IsSnippetBody body) (hrest : TakenOut rest left) :
      TakenOut (snippet body ++ rest) left
  | kept {c : Code} {rest left : Text}
      (hnone : ∀ body, IsSnippetBody body → ¬ snippet body <+: c :: rest)
      (hrest : TakenOut rest left) : TakenOut (c :: rest) (c :: left)

theorem fencedBlock_eq_none_iff :
    fencedBlock text = none ↔ ∀ body, IsSnippetBody body → ¬ snippet body <+: text := by
  constructor
  · rintro hnone body hbody ⟨rest, rfl⟩
    rw [fencedBlock_snippet hbody] at hnone
    cases hnone
  · intro hnone
    by_contra hsome
    obtain ⟨length, hfound⟩ := Option.ne_none_iff_exists'.mp hsome
    obtain ⟨body, rest, hbody, rfl, -⟩ := exists_of_fencedBlock hfound
    exact hnone body hbody (List.prefix_append _ _)

theorem takenOut_replacePattern (text : Text) :
    TakenOut text (Text.replacePattern fencedBlock "" text) := by
  induction hlength : text.length using Nat.strong_induction_on generalizing text with
  | _ length ih =>
      subst hlength
      cases text with
      | nil => exact .nil
      | cons c rest =>
          cases hfound : fencedBlock (c :: rest) with
          | none =>
              rw [Text.replacePattern_kept hfound]
              exact .kept (fencedBlock_eq_none_iff.mp hfound) (ih _ (Nat.lt_succ_self _) rest rfl)
          | some count =>
              obtain ⟨body, others, hbody, htext, -⟩ := exists_of_fencedBlock hfound
              have hshorter : others.length < (c :: rest).length := by
                rw [htext, List.length_append, length_snippet]
                omega
              rw [htext, Text.replacePattern_found (snippet_ne_nil body)
                (fencedBlock_snippet hbody others)]
              exact .taken hbody (ih _ hshorter others rfl)

/-- The first step of the markup takes the snippets out. -/
theorem takenOut_iff :
    TakenOut text left ↔ Text.replacePattern fencedBlock "" text = left := by
  constructor
  · intro htaken
    induction htaken with
    | nil => rfl
    | taken hbody _ ih =>
        rw [Text.replacePattern_found (snippet_ne_nil _) (fencedBlock_snippet hbody _)]
        exact ih
    | kept hnone _ ih =>
        rw [Text.replacePattern_kept (fencedBlock_eq_none_iff.mpr hnone), ih]
  · rintro rfl
    exact takenOut_replacePattern text

theorem takenOut_self (hnone : ∀ body, IsSnippetBody body → ¬ snippet body <:+: text) :
    TakenOut text text := by
  induction text with
  | nil => exact .nil
  | cons c rest ih =>
      refine .kept (fun body hbody hstarts => hnone body hbody hstarts.isInfix) (ih ?_)
      exact fun body hbody hinfix => hnone body hbody (List.infix_cons hinfix)

/-! ## Lines that open fences -/

/-- A line that begins with a fence, or is the beginning of one, behind some end of a mark. -/
def OpensFence (mark line : Text) : Prop :=
  ∃ rest, rest <:+ mark ∧ rest ++ ("`" : Text) <+: line ∧
    (rest ++ ("```" : Text) <+: line ∨ line <+: rest ++ ("```" : Text))

instance (mark line : Text) : Decidable (OpensFence mark line) :=
  decidable_of_iff (∃ rest ∈ mark.tails, rest ++ ("`" : Text) <+: line ∧
      (rest ++ ("```" : Text) <+: line ∨ line <+: rest ++ ("```" : Text)))
    (exists_congr fun rest => and_congr_left' (List.mem_tails rest mark))

theorem OpensFence.of_append {mark a b : Text} (hopens : OpensFence mark (a ++ b)) :
    OpensFence mark a ∨ OpensFence mark b := by
  obtain ⟨rest, hrest, hbegun, hfence⟩ := hopens
  rcases le_or_gt a.length rest.length with hshort | hlong
  · -- The line before is part of the mark.
    obtain ⟨others, rfl⟩ : a <+: rest :=
      List.prefix_of_prefix_length_le (List.prefix_append a b)
        ((List.prefix_append rest _).trans hbegun) hshort
    simp only [List.append_assoc, List.prefix_append_right_inj] at hbegun hfence
    exact .inr ⟨others, (List.suffix_append a others).trans hrest, hbegun, hfence⟩
  · have hbegun : rest ++ ("`" : Text) <+: a := by
      refine List.prefix_of_prefix_length_le hbegun (List.prefix_append a b) ?_
      rw [List.length_append]
      exact hlong
    refine .inl ⟨rest, hrest, hbegun, ?_⟩
    rcases hfence with hwhole | hpart
    · exact List.prefix_or_prefix_of_prefix hwhole (List.prefix_append a b)
    · exact .inr ((List.prefix_append a b).trans hpart)

theorem joinable_not_opensFence (mark : Text) :
    Text.Joinable fun line => ¬ OpensFence mark line where
  empty := by
    rintro ⟨rest, -, hbegun, -⟩
    exact absurd (List.append_eq_nil_iff.mp (List.prefix_nil.mp hbegun)).2 (by decide)
  append a b ha hb hopens := hopens.of_append.elim ha hb

theorem OpensFence.mono {mark mark' line : Text} (hopens : OpensFence mark line)
    (hmark : mark <:+ mark') : OpensFence mark' line := by
  obtain ⟨rest, hrest, hfence⟩ := hopens
  exact ⟨rest, hrest.trans hmark, hfence⟩

theorem OpensFence.behind_mark {mark line : Text} (hopens : OpensFence [] line) :
    OpensFence mark (mark ++ line) := by
  obtain ⟨rest, hrest, hbegun, hfence⟩ := hopens
  obtain rfl := List.suffix_nil.mp hrest
  refine ⟨mark, List.suffix_rfl, ?_, ?_⟩
  · exact (List.prefix_append_right_inj mark).mpr hbegun
  · exact hfence.imp (List.prefix_append_right_inj mark).mpr (List.prefix_append_right_inj mark).mpr

theorem not_snippet_infix
    (htext : Text.LinesAre (fun _ => True) (fun line => ¬ OpensFence [] line) text) (body : Text) :
    ¬ snippet body <:+: text := by
  rintro ⟨before, after, rfl⟩
  rw [List.append_assoc, snippet_append] at htext
  have hline : .char '\n' ∉ ("```" : Text) := by decide
  have hfence := (Text.linesAre_append hline _).mp htext.behind
  obtain ⟨line, hopens⟩ := hfence.exists_first
  exact hopens ⟨[], List.nil_suffix, ⟨"``" ++ line, rfl⟩, .inl ⟨line, rfl⟩⟩

/-! ## The other steps of the markup -/

/-- If no line that is left of a description without its snippets opens a fence, quoted or not,
then no line of the comment opens one. -/
theorem linesAre_cleanMarkup (htext : Text.LinesAre (fun _ => True)
      (fun line => ¬ OpensFence "> " line) (Text.replacePattern fencedBlock "" text)) :
    Text.LinesAre (fun _ => True) (fun line => ¬ OpensFence [] line) (cleanMarkup text) := by
  have hquoted := joinable_not_opensFence "> "
  have hplain := joinable_not_opensFence []
  have hparagraph : ¬ OpensFence [] "<p> " := by
    rintro ⟨rest, hrest, hbegun, -⟩
    obtain rfl := List.suffix_nil.mp hrest
    exact absurd hbegun (by decide)
  have hexample := (Text.isPass_wordAndFullLine (w := "An example of") hquoted
    hquoted.linesAre_nil).laterLines htext
  have hthis := (Text.isPass_wordAndFullLine (w := "This example ") hquoted
    hquoted.linesAre_nil).laterLines hexample
  have hheader := (Text.isPass_word (w := "Examples:") hquoted
    hquoted.linesAre_nil).laterLines hthis
  have hsee := (Text.isPass_wordAndLine (w := "See ChromiumBrowser") hquoted
    (hquoted.linesAre_newline hquoted.linesAre_nil)).laterLines hheader
  -- A quoted line opens no fence with its mark, so it may lose the mark.
  have hunquoted := (Text.isPass_mark (w := "> ") hplain (by decide)
    (fun line hline hopens => hline (hopens.mono List.nil_suffix))
    (fun line hline hopens => hline hopens.behind_mark)
    (hplain.linesAre_newline hplain.linesAre_nil)).laterLines hsee
  exact (Text.isPass_word (w := []) hplain (hplain.linesAre_newline (hplain.linesAre_newline
    ((Text.linesAre_line (by decide)).mpr hparagraph)))).laterLines hunquoted

/-- No snippet is left in a comment when no line of what is left without the snippets opens a
fence. -/
theorem cleanMarkup_holdsNoSnippet (hleft : TakenOut text left)
    (hlines : ∀ line ∈ (Text.pieces '\n' left).tail, ¬ OpensFence "> " line) :
    cleanMarkup text = cleanMarkup left ∧
      ∀ body, IsSnippetBody body → ¬ snippet body <:+: cleanMarkup text := by
  have hquoted : Text.LinesAre (fun _ => True) (fun line => ¬ OpensFence "> " line) left :=
    ⟨fun _ _ => trivial, hlines⟩
  have hplain : Text.LinesAre (fun _ => True) (fun line => ¬ OpensFence [] line) left :=
    hquoted.mono (fun _ => id) fun line hline hopens => hline (hopens.mono List.nil_suffix)
  have hself : TakenOut left left := takenOut_self fun body _ => not_snippet_infix hplain body
  have hcomment : cleanMarkup text = cleanMarkup left := by
    unfold cleanMarkup
    rw [takenOut_iff.mp hleft, takenOut_iff.mp hself]
  refine ⟨hcomment, fun body _ => not_snippet_infix (linesAre_cleanMarkup ?_) body⟩
  rw [takenOut_iff.mp hleft]
  exact hquoted

theorem cleanMarkup_holdsNoSnippet_clicks :
    cleanMarkup "Clicks.\n\n```a```\n\n```b```\nMore `c`." = cleanMarkup "Clicks.\nMore `c`." ∧
      ∀ body, IsSnippetBody body →
        ¬ snippet body <:+: cleanMarkup "Clicks.\n\n```a```\n\n```b```\nMore `c`." :=
  cleanMarkup_holdsNoSnippet (takenOut_iff.mpr (by decide +kernel)) (by decide +kernel)

/-- The newline between two snippets is taken with the first one, and the second one stays. -/
theorem snippet_behind_snippet_survives :
    IsSnippetBody "b" ∧
      cleanMarkup "Clicks.\n\n```a```\n```b```\nMore." = "Clicks.\n```b```\nMore." ∧
      snippet "b" <:+: cleanMarkup "Clicks.\n\n```a```\n```b```\nMore." := by
  decide +kernel

end Java
end ApiBindings
