import ApiBindings.Proofs.Resolution.Registration
import Mathlib.Data.List.Forall2
import Mathlib.Data.List.TakeWhile
/-!
# Enums

A named union of literals becomes an enum.  Each member names a value: the
literal without the quotes around it, with underscores for hyphens and in upper
case.  The values have to be identifiers and no two of them the same, and a type
that is registered under the name of the union has to be an enum of these values.

The check for an identifier lets one newline pass behind it, so that the values
of the enums that are registered are identifiers up to such a newline.
-/

namespace ApiBindings

namespace Text

/-! ## Identifiers -/

/-- A letter or an underscore, and behind it letters, underscores and digits. -/
def IsIdentifier : Text → Prop
  | [] => False
  | first :: rest =>
    first.isIn isIdentifierStart = true ∧ ∀ c ∈ rest, c.isIn isIdentifierRest = true

/-- An identifier, alone or with one newline behind it. -/
def PassesAsIdentifier (text : Text) : Prop :=
  ∃ word : Text, word.IsIdentifier ∧ (text = word ∨ text = word ++ [.char '\n'])

theorem isIdentifierLine_iff {text : Text} :
    text.isIdentifierLine = true ↔ text.PassesAsIdentifier := by
  constructor
  · intro hline
    cases text with
    | nil => exact absurd hline (by decide)
    | cons first rest =>
        simp only [isIdentifierLine, Bool.and_eq_true, Bool.or_eq_true, decide_eq_true_eq] at hline
        rcases hline with ⟨hfirst, hbehind⟩
        have hsplit : rest.takeWhile (Code.isIn isIdentifierRest) ++
            rest.dropWhile (Code.isIn isIdentifierRest) = rest := List.takeWhile_append_dropWhile
        refine ⟨first :: rest.takeWhile (Code.isIn isIdentifierRest), ⟨hfirst, ?_⟩, ?_⟩
        · exact fun c hc => List.mem_takeWhile_imp hc
        · rcases hbehind with hnone | hnewline
          · rw [hnone, List.append_nil] at hsplit
            exact .inl (by rw [hsplit])
          · rw [hnewline] at hsplit
            exact .inr (by rw [List.cons_append, hsplit])
  · rintro ⟨word, hword, htext⟩
    cases word with
    | nil => exact hword.elim
    | cons first rest =>
        rcases hword with ⟨hfirst, hrest⟩
        rcases htext with rfl | rfl
        · simp [isIdentifierLine, hfirst, List.dropWhile_eq_nil_iff.mpr hrest]
        · have hnewline : (rest ++ [Code.char '\n']).dropWhile (Code.isIn isIdentifierRest) =
              [.char '\n'] := by
            rw [List.dropWhile_append_of_pos hrest]
            rfl
          simp [isIdentifierLine, hfirst, hnewline]

/-! ## Literals -/

def IsQuote (c : Code) : Prop :=
  c = .char '\'' ∨ c = .char '"'

/-- The second text is the first one without one pair of matching quotes, if there
are such quotes around it. -/
inductive Unquotes : Text → Text → Prop
  | quoted {quote : Code} (hquote : IsQuote quote) (inner : Text) :
      Unquotes (quote :: inner ++ [quote]) inner
  | bare {text : Text}
      (hbare : ∀ quote inner, IsQuote quote → text ≠ quote :: inner ++ [quote]) :
      Unquotes text text

theorem unquotes_iff {literal bare : Text} : Unquotes literal bare ↔ unquote literal = bare := by
  constructor
  · intro hunquotes
    cases hunquotes with
    | quoted hquote => simp [unquote, hquote.imp id id]
    | bare hbare =>
        cases literal with
        | nil => rfl
        | cons quote rest =>
            refine if_neg ?_
            rintro ⟨hquote, hlast⟩
            rcases List.getLast?_eq_some_iff.mp hlast with ⟨inner, hrest⟩
            exact hbare quote inner hquote (by rw [hrest, List.cons_append])
  · rintro rfl
    cases literal with
    | nil => exact .bare fun quote inner _ => nofun
    | cons quote rest =>
        by_cases hquoted : (quote = .char '\'' ∨ quote = .char '"') ∧ rest.getLast? = some quote
        · rcases List.getLast?_eq_some_iff.mp hquoted.2 with ⟨inner, hrest⟩
          subst hrest
          rw [unquote, if_pos hquoted, List.dropLast_concat]
          exact .quoted hquoted.1 inner
        · rw [unquote, if_neg hquoted]
          refine .bare fun other inner hother heq => hquoted ?_
          rw [List.cons_append, List.cons.injEq] at heq
          rcases heq with ⟨rfl, rfl⟩
          exact ⟨hother, List.getLast?_concat⟩

end Text

/-! ## Values -/

/-- A member of a union names a value of an enum: it is not null, and its literal
without quotes is the value but for hyphens and case. -/
structure TypeNode.Names (member : TypeNode) (value : Text) : Prop where
  notNull : member.isNull = false
  spelled : ∃ bare, Text.Unquotes member.name bare ∧
    value = Text.upper (bare.map fun c => if c = .char '-' then .char '_' else c)

theorem TypeNode.names_iff {member : TypeNode} {value : Text} :
    member.Names value ↔ member.isNull = false ∧ value = Text.enumConstant member.name := by
  constructor
  · rintro ⟨hnull, bare, hbare, hvalue⟩
    rw [Text.unquotes_iff] at hbare
    exact ⟨hnull, by rw [hvalue, Text.enumConstant, hbare]⟩
  · rintro ⟨hnull, hvalue⟩
    exact ⟨hnull, _, Text.unquotes_iff.mpr rfl, hvalue⟩

/-- The members of a union name these values, each of which passes as an identifier
and no two of which are the same. -/
structure EnumValues (members : List TypeNode) (values : List Text) : Prop where
  named : List.Forall₂ TypeNode.Names members values
  identifiers : ∀ value ∈ values, value.PassesAsIdentifier
  distinct : values.Nodup

theorem enumValues_nil : EnumValues [] [] := ⟨.nil, nofun, .nil⟩

theorem enumValues_cons_iff {member : TypeNode} {members : List TypeNode} {value : Text}
    {values : List Text} :
    EnumValues (member :: members) (value :: values) ↔
      member.isNull = false ∧ value = Text.enumConstant member.name ∧
        value.isIdentifierLine = true ∧ value ∉ values ∧ EnumValues members values := by
  constructor
  · rintro ⟨hnamed, hidentifiers, hdistinct⟩
    rcases List.forall₂_cons.mp hnamed with ⟨hmember, hrest⟩
    rcases List.forall_mem_cons.mp hidentifiers with ⟨hvalue, hvalues⟩
    rcases List.nodup_cons.mp hdistinct with ⟨hnew, hnodup⟩
    rcases TypeNode.names_iff.mp hmember with ⟨hnull, hname⟩
    exact ⟨hnull, hname, Text.isIdentifierLine_iff.mpr hvalue, hnew, hrest, hvalues, hnodup⟩
  · rintro ⟨hnull, hname, hline, hnew, hrest⟩
    exact ⟨.cons (TypeNode.names_iff.mpr ⟨hnull, hname⟩) hrest.named,
      List.forall_mem_cons.mpr ⟨Text.isIdentifierLine_iff.mp hline, hrest.identifiers⟩,
      List.nodup_cons.mpr ⟨hnew, hrest.distinct⟩⟩

theorem EnumValues.eq_map {members : List TypeNode} {values : List Text}
    (hvalues : EnumValues members values) :
    values = members.map fun member => Text.enumConstant member.name := by
  have hnamed := hvalues.named
  clear hvalues
  induction hnamed with
  | nil => rfl
  | cons hmember _ ih => rw [List.map_cons, ← ih, (TypeNode.names_iff.mp hmember).2]

namespace Catalogue

/-- The values are found exactly if the members name such values and none of them
is among those found before. -/
theorem enumValues_ok_iff {enum path : Text} {done values : List Text}
    {members : List TypeNode} :
    enumValues enum path done members = .ok values ↔
      ∃ new, values = done ++ new ∧ EnumValues members new ∧ done.Disjoint new := by
  -- the values before stand in front of the new ones, so they vary along the members
  induction members generalizing done with
  | nil =>
      rw [enumValues]
      constructor
      · intro hdone
        exact ⟨[], by simpa using hdone.symm, enumValues_nil, List.disjoint_nil_right _⟩
      · rintro ⟨new, hvalues, hnew, -⟩
        cases hnew.named
        rw [hvalues, List.append_nil]
  | cons member rest ih =>
      rw [enumValues]
      generalize hvalue : Text.enumConstant member.name = value
      constructor
      · intro hrun
        split at hrun
        next => exact nomatch hrun
        next hnull =>
          split at hrun
          next => exact nomatch hrun
          next hline =>
            split at hrun
            next => exact nomatch hrun
            next hfresh =>
              rcases ih.mp hrun with ⟨new, rfl, hnew, hapart⟩
              rcases List.disjoint_append_left.mp hapart with ⟨hdone, hlast⟩
              refine ⟨value :: new, List.append_assoc _ _ _, ?_, ?_⟩
              · refine enumValues_cons_iff.mpr ⟨by simpa using hnull, hvalue.symm, by simpa using hline,
                  ?_, hnew⟩
                exact List.singleton_disjoint.mp hlast
              · exact List.disjoint_cons_right.mpr ⟨by simpa using hfresh, hdone⟩
      · rintro ⟨new, hvalues, hnew, hapart⟩
        cases new with
        | nil => exact nomatch hnew.named
        | cons first new =>
            rcases enumValues_cons_iff.mp hnew with ⟨hnull, hfirst, hline, hfresh, hrest⟩
            obtain rfl : first = value := hfirst.trans hvalue
            rcases List.disjoint_cons_right.mp hapart with ⟨hnotDone, hdone⟩
            simp only [hnull, hline, List.contains_iff_mem, hnotDone, Bool.not_true,
              Bool.false_eq_true, if_false]
            refine ih.mpr ⟨new, by rw [hvalues, List.append_assoc]; rfl, hrest, ?_⟩
            exact List.disjoint_append_left.mpr ⟨hdone, List.singleton_disjoint.mpr hfresh⟩

theorem enumValues_start_iff {enum path : Text} {values : List Text}
    {members : List TypeNode} :
    enumValues enum path [] members = .ok values ↔ EnumValues members values := by
  rw [enumValues_ok_iff]
  constructor
  · rintro ⟨new, rfl, hnew, -⟩
    exact hnew
  · intro hvalues
    exact ⟨values, rfl, hvalues, List.disjoint_nil_left _⟩

theorem enumFor_eq {catalogue : Catalogue} {name path : Text} {members : List TypeNode}
    {values : List Text} (hname : name ≠ "") (hvalues : EnumValues members values) :
    catalogue.enumFor name path members = catalogue.addEnum { name, values, path } := by
  rw [enumFor, if_neg hname, enumValues_start_iff.mpr hvalues]
  rfl

theorem enumFor_ok_iff {catalogue after : Catalogue} {name path : Text}
    {members : List TypeNode} {enum : EnumType} :
    catalogue.enumFor name path members = .ok (enum, after) ↔
      name ≠ "" ∧ EnumValues members enum.values ∧
        ((catalogue.global? (.str name) = none ∧ enum = ⟨name, enum.values, path⟩ ∧
            after = catalogue.addGlobal (.ofEnum enum)) ∨
          (catalogue.global? (.str name) = some (.ofEnum enum) ∧ after = catalogue)) := by
  constructor
  · intro hadd
    refine ⟨?_, ?_⟩
    · rintro rfl
      exact nomatch hadd
    · rcases enumFor_ok hadd with ⟨values, hvalues, ⟨hnew, rfl, hafter⟩ | ⟨hfound, rfl, hafter⟩⟩
      · exact ⟨enumValues_start_iff.mp hvalues, .inl ⟨hnew, rfl, hafter⟩⟩
      · exact ⟨enumValues_start_iff.mp hvalues, .inr ⟨hfound, hafter⟩⟩
  · rintro ⟨hname, hvalues, hcases⟩
    rw [enumFor_eq hname hvalues, addEnum]
    rcases hcases with ⟨hnew, henum, hafter⟩ | ⟨hfound, hafter⟩
    · rw [hnew, ← henum, hafter]
    · rw [hfound, hafter]
      exact if_pos rfl

theorem exists_enumFor_iff {catalogue : Catalogue} {name path : Text}
    {members : List TypeNode} :
    (∃ enum after, catalogue.enumFor name path members = .ok (enum, after)) ↔
      name ≠ "" ∧ ∃ values, EnumValues members values ∧
        ∀ type, catalogue.global? (.str name) = some type →
          ∃ enum, type = .ofEnum enum ∧ enum.values = values := by
  constructor
  · rintro ⟨enum, after, hadd⟩
    rcases enumFor_ok_iff.mp hadd with ⟨hname, hvalues, hcases⟩
    refine ⟨hname, enum.values, hvalues, fun type htype => ?_⟩
    rcases hcases with ⟨hnew, -⟩ | ⟨hfound, -⟩
    · exact nomatch hnew.symm.trans htype
    · exact ⟨enum, Option.some.inj (htype.symm.trans hfound), rfl⟩
  · rintro ⟨hname, values, hvalues, hsame⟩
    cases hglobal : catalogue.global? (.str name) with
    | none =>
        exact ⟨⟨name, values, path⟩, _,
          enumFor_ok_iff.mpr ⟨hname, hvalues, .inl ⟨hglobal, rfl, rfl⟩⟩⟩
    | some type =>
        rcases hsame type hglobal with ⟨enum, rfl, rfl⟩
        exact ⟨enum, _, enumFor_ok_iff.mpr ⟨hname, hvalues, .inr ⟨hglobal, rfl⟩⟩⟩

end Catalogue

/-! ## Registered enums -/

/-- The values of all enums that are registered pass as identifiers. -/
def Knowledge.EnumsPass (known : Knowledge) : Prop :=
  ∀ enum ∈ known.catalogue.globalEnums, ∀ value ∈ enum.values, value.PassesAsIdentifier

namespace Resolving

theorem lasting_enumsPass : Lasting Knowledge.EnumsPass where
  openOwner _ hpass := hpass
  enumFor {known _ _ _ added _} hpass hadd := by
    rcases Catalogue.enumFor_ok_iff.mp hadd with ⟨-, hvalues, ⟨-, -, rfl⟩ | ⟨-, rfl⟩⟩
    · intro enum henum
      rcases List.mem_append.mp (mem_globalEnums.mp henum) with hold | hnew
      · exact hpass enum (mem_globalEnums.mpr hold)
      · obtain rfl : enum = added := by simpa using hnew
        exact hvalues.identifiers
    · exact hpass
  addClass hpass hadd := by
    rcases (Catalogue.addClass_ok hadd).2 with
      ⟨-, -, rfl⟩ | ⟨-, -, -, rfl⟩ | ⟨-, -, -, rfl⟩ | ⟨-, -, -, rfl⟩
    · exact hpass
    · exact hpass
    · intro enum henum
      have hold := mem_globalEnums.mp henum
      rw [Catalogue.globals_addGlobal] at hold
      exact hpass enum (mem_globalEnums.mpr (by simpa using hold))
    · exact hpass

end Resolving

theorem attemptAll_enumsPass (settings : Settings) (steps : List Registration) :
    (attemptAll settings steps .empty).EnumsPass := by
  have hresolve : ∀ owner address type, Resolving.Preserves Knowledge.EnumsPass
      (resolve settings owner address type) :=
    Resolving.lasting_enumsPass.preserves_resolve (fun _ hpass => hpass) settings
  exact attemptAll_preserves Resolving.lasting_enumsPass hresolve steps nofun

/-- A union becomes an enum exactly if it has a name, its members name distinct
values that pass as identifiers, and a type that has the name of the union already
is an enum of these values.  Then the enum that is registered has the values that
the members name, in the order of the members; a failure leaves what is known as
it is.  After any steps the values of all enums pass as identifiers: each is one,
or is one with a newline behind it. -/
theorem enumFor_registered (settings : Settings) (steps : List Registration)
    (known : Knowledge) (name path : Text) (members : List TypeNode) :
    let ended := Resolving.outcome (Resolving.onCatalogue (·.enumFor name path members)) known
    ((∃ enum, ended.1 = .ok enum) ↔
      name ≠ "" ∧ ∃ values, EnumValues members values ∧
        ∀ type, known.catalogue.global? (.str name) = some type →
          ∃ enum, type = .ofEnum enum ∧ enum.values = values) ∧
    (∀ enum, ended.1 = .ok enum →
      enum.name = name ∧ EnumValues members enum.values ∧
      ended.2.catalogue.global? (.str name) = some (.ofEnum enum) ∧
      (ended.2 = known ∨
        known.catalogue.global? (.str name) = none ∧ enum.path = path ∧
          ended.2 = { known with catalogue := known.catalogue.addGlobal (.ofEnum enum) })) ∧
    (∀ failure, ended.1 = .error failure → ended.2 = known) ∧
    ∀ enum ∈ (attemptAll settings steps .empty).catalogue.globalEnums,
      ∀ value ∈ enum.values, value.PassesAsIdentifier := by
  intro ended
  rw [← Catalogue.exists_enumFor_iff]
  rcases Resolving.outcome_onCatalogue_cases (·.enumFor name path members) known with
    ⟨failure, hadd, hended⟩ | ⟨enum, catalogue, hadd, hended⟩
  · refine ⟨?_, ?_, fun _ _ => congrArg Prod.snd hended, attemptAll_enumsPass settings steps⟩
    · constructor
      · rintro ⟨enum, hok⟩
        exact nomatch (congrArg Prod.fst hended).symm.trans hok
      · rintro ⟨enum, after, hsome⟩
        exact nomatch hadd.symm.trans hsome
    · intro enum hok
      exact nomatch (congrArg Prod.fst hended).symm.trans hok
  · refine ⟨⟨fun _ => ⟨enum, catalogue, hadd⟩, fun _ => ⟨enum, congrArg Prod.fst hended⟩⟩, ?_, ?_,
      attemptAll_enumsPass settings steps⟩
    · intro found hok
      obtain rfl : enum = found := Except.ok.inj ((congrArg Prod.fst hended).symm.trans hok)
      rcases Catalogue.enumFor_found hadd with ⟨hname, hfound⟩
      rcases Catalogue.enumFor_ok_iff.mp hadd with ⟨-, hvalues, hcases⟩
      have hafter : ended.2 = { known with catalogue } := congrArg Prod.snd hended
      refine ⟨hname, hvalues, hafter ▸ hfound, ?_⟩
      rcases hcases with ⟨hnew, henum, rfl⟩ | ⟨-, rfl⟩
      · exact .inr ⟨hnew, congrArg EnumType.path henum, hafter⟩
      · exact .inl hafter
    · intro failure hfailed
      exact nomatch (congrArg Prod.fst hended).symm.trans hfailed

/-! ## A mode of one value -/

def modePath : Text := "Page.mode"

/-- A literal of one word and a newline. -/
def darkLine : TypeNode := .primitive "'dark\n'" modePath

/-- A value that is no identifier is registered, because a newline is all that stands
behind the word. -/
theorem newline_passes :
    let ended := Resolving.outcome
      (Resolving.onCatalogue (·.enumFor "Mode" modePath [darkLine])) .empty
    ended = (.ok ⟨"Mode", ["DARK\n"], modePath⟩,
      ⟨⟨[.ofEnum ⟨"Mode", ["DARK\n"], modePath⟩], []⟩, []⟩) ∧
    ¬((∃ enum, ended.1 = .ok enum) ↔
      ("Mode" : Text) ≠ "" ∧ ∃ values, List.Forall₂ TypeNode.Names [darkLine] values ∧
        (∀ value ∈ values, value.IsIdentifier) ∧ values.Nodup ∧
        ∀ type, Knowledge.empty.catalogue.global? (.str "Mode") = some type →
          ∃ enum, type = .ofEnum enum ∧ enum.values = values) := by
  intro ended
  have hended : ended = (.ok ⟨"Mode", ["DARK\n"], modePath⟩,
      ⟨⟨[.ofEnum ⟨"Mode", ["DARK\n"], modePath⟩], []⟩, []⟩) := rfl
  refine ⟨hended, fun hiff => ?_⟩
  rcases hiff.mp ⟨_, congrArg Prod.fst hended⟩ with ⟨-, values, hnamed, hidentifiers, -, -⟩
  cases hnamed with
  | cons hvalue _ =>
      have hidentifier := hidentifiers _ List.mem_cons_self
      rw [(TypeNode.names_iff.mp hvalue).2] at hidentifier
      have hlast : Code.isIn Text.isIdentifierRest (.char '\n') = true :=
        hidentifier.2 _ (by decide)
      exact absurd hlast (by decide)

end ApiBindings
