import ApiBindings.Proofs.Schema.Node
/-!
# Restricting descriptions that are alike

Two descriptions are alike if they differ only in the texts of comments, or only
in items of lists that are for other languages.  Restricting them to a language
comes to the same: it leaves values that are alike in the first case and equal
in the second one, and it drops equally many nodes.
-/

namespace ApiBindings

/-- Two failures of one family at the same path. -/
def Failure.SameSource : Failure → Failure → Prop
  | .diagnosed d, .diagnosed e => d.cause.family = e.cause.family ∧ d.path = e.path
  | f, g => f = g

theorem Failure.SameSource.refl (f : Failure) : f.SameSource f := by
  cases f <;> simp [SameSource]

/-- Two runs end alike: both well or both in failure. -/
inductive Likewise {α β : Type} (fails : Failure → Failure → Prop) (ends : α → β → Prop) :
    Except Failure α → Except Failure β → Prop
  | ok {a : α} {b : β} (hends : ends a b) : Likewise fails ends (.ok a) (.ok b)
  | error {f g : Failure} (hfails : fails f g) : Likewise fails ends (.error f) (.error g)

section

variable {α β γ δ : Type} {fails : Failure → Failure → Prop} {ends : α → β → Prop}
  {x : Except Failure α} {y : Except Failure β}

theorem Likewise.refl {ends : α → α → Prop} (hfails : ∀ f, fails f f) (hends : ∀ a, ends a a)
    (x : Except Failure α) : Likewise fails ends x x := by
  cases x with
  | error f => exact .error (hfails f)
  | ok a => exact .ok (hends a)

theorem Likewise.imp {fails' : Failure → Failure → Prop} {ends' : α → β → Prop}
    (hrun : Likewise fails ends x y) (hfails : ∀ f g, fails f g → fails' f g)
    (hends : ∀ a b, ends a b → ends' a b) : Likewise fails' ends' x y := by
  cases hrun with
  | ok h => exact .ok (hends _ _ h)
  | error h => exact .error (hfails _ _ h)

theorem Likewise.of_map {x y : Except Failure α} {f : α → γ} (hfails : ∀ f, fails f f)
    (hmap : x.map f = y.map f) : Likewise fails (fun a b => f a = f b) x y := by
  cases x with
  | error failure =>
      cases y with
      | error failure' =>
          obtain rfl := Except.error.inj hmap
          exact .error (hfails _)
      | ok b => cases hmap
  | ok a =>
      cases y with
      | error failure => cases hmap
      | ok b => exact .ok (Except.ok.inj hmap)

theorem Likewise.bind_run {ends' : γ → δ → Prop} {next : α → Except Failure γ}
    {next' : β → Except Failure δ} (hrun : Likewise fails ends x y)
    (hnext : ∀ a b, x = .ok a → ends a b → Likewise fails ends' (next a) (next' b)) :
    Likewise fails ends' (x >>= next) (y >>= next') := by
  cases hrun with
  | ok hends => exact hnext _ _ rfl hends
  | error hfails => exact .error hfails

theorem Likewise.bind {ends' : γ → δ → Prop} {next : α → Except Failure γ}
    {next' : β → Except Failure δ} (hrun : Likewise fails ends x y)
    (hnext : ∀ a b, ends a b → Likewise fails ends' (next a) (next' b)) :
    Likewise fails ends' (x >>= next) (y >>= next') :=
  hrun.bind_run fun a b _ => hnext a b

end

namespace Availability

/-- The keys of comments. -/
def isCommentKey (key : Text) : Bool :=
  key = "comment" || key = "returnComment"

/-- The keys of what a node is called by, which goes into paths and classes as
it is. -/
def isNamingKey (key : Text) : Bool :=
  key = "name" || key = "extends"

/-- What two descriptions may differ in. -/
inductive Leeway where
  | none
  /-- The texts of comments. -/
  | comments
  /-- The items of lists that are for other languages. -/
  | excluded

/-- What two descriptions may still differ in once they are restricted. -/
def Leeway.rest : Leeway → Leeway
  | .comments => .comments
  | _ => .none

mutual

/-- Two values are alike. -/
inductive Alike (leeway : Leeway) (language : Text) : Json → Json → Prop
  | null : Alike leeway language .null .null
  | bool (b : Bool) : Alike leeway language (.bool b) (.bool b)
  | int (n : Int) : Alike leeway language (.int n) (.int n)
  | float (x : Binary64) : Alike leeway language (.float x) (.float x)
  | str (text : Text) : Alike leeway language (.str text) (.str text)
  | arr {items items' : List Json} (hitems : AlikeItems leeway language items items') :
    Alike leeway language (.arr items) (.arr items')
  | obj {entries entries' : List (Text × Json)}
    (hentries : AlikeEntries leeway language entries entries') :
    Alike leeway language (.obj entries) (.obj entries')

/-- Two lists are alike item by item. -/
inductive AlikeItems (leeway : Leeway) (language : Text) : List Json → List Json → Prop
  | nil : AlikeItems leeway language [] []
  | cons {item item' : Json} {rest rest' : List Json} (hitem : Alike leeway language item item')
    (hrest : AlikeItems leeway language rest rest') :
    AlikeItems leeway language (item :: rest) (item' :: rest')
  | excluded {item item' : Json} {rest rest' : List Json} (hleeway : leeway = .excluded)
    (hitem : isAvailable language item = .ok false)
    (hitem' : isAvailable language item' = .ok false)
    (hrest : AlikeItems leeway language rest rest') :
    AlikeItems leeway language (item :: rest) (item' :: rest')

/-- Two objects are alike entry by entry. -/
inductive AlikeEntries (leeway : Leeway) (language : Text) :
    List (Text × Json) → List (Text × Json) → Prop
  | nil : AlikeEntries leeway language [] []
  | cons {key : Text} {value value' : Json} {rest rest' : List (Text × Json)}
    (hvalue : Alike leeway language value value')
    (hnaming : leeway = .comments → isNamingKey key = true → value = value')
    (hrest : AlikeEntries leeway language rest rest') :
    AlikeEntries leeway language ((key, value) :: rest) ((key, value') :: rest')
  | comment {key text text' : Text} {rest rest' : List (Text × Json)}
    (hleeway : leeway = .comments) (hkey : isCommentKey key = true)
    (hrest : AlikeEntries leeway language rest rest') :
    AlikeEntries leeway language ((key, .str text) :: rest) ((key, .str text') :: rest')

end

variable {leeway : Leeway} {language : Text}

/-- What stands under a key is alike, as it is no comment that may differ. -/
def Leeway.Relates (leeway : Leeway) (key : Text) : Prop :=
  leeway = .comments → isCommentKey key = false

theorem isNamingKey_of_comment {key : Text} (hkey : isCommentKey key = true) :
    isNamingKey key = false := by
  have hcases : key = "comment" ∨ key = "returnComment" := by simpa [isCommentKey] using hkey
  rcases hcases with rfl | rfl <;> decide

theorem AlikeEntries.find? {entries entries' : List (Text × Json)}
    (hentries : AlikeEntries leeway language entries entries') (key : Text)
    (hkey : leeway.Relates key) :
    Option.Rel (Alike leeway language) (Text.find? key entries) (Text.find? key entries') := by
  induction entries generalizing entries' with
  | nil =>
      cases hentries
      exact .none
  | cons entry rest ih =>
      cases hentries with
      | cons hvalue _ hrest =>
          rw [Text.find?_cons, Text.find?_cons]
          split
          next => exact .some hvalue
          next => exact ih hrest
      | @comment k _ _ _ _ hleeway hcomment hrest =>
          have hne : key ≠ k := by
            rintro rfl
            simp [hkey hleeway] at hcomment
          rw [Text.find?_cons, Text.find?_cons, if_neg hne, if_neg hne]
          exact ih hrest

theorem AlikeEntries.find?_naming {entries entries' : List (Text × Json)}
    (hentries : AlikeEntries .comments language entries entries') (key : Text)
    (hkey : isNamingKey key = true) : Text.find? key entries = Text.find? key entries' := by
  induction entries generalizing entries' with
  | nil =>
      cases hentries
      rfl
  | cons entry rest ih =>
      cases hentries with
      | @cons k value value' _ _ hvalue hnaming hrest =>
          rw [Text.find?_cons, Text.find?_cons, ih hrest]
          by_cases hne : key = k
          · subst hne
            rw [hnaming rfl hkey]
          · rw [if_neg hne, if_neg hne]
      | @comment k _ _ _ _ hleeway hcomment hrest =>
          have hne : key ≠ k := by
            rintro rfl
            simp [isNamingKey_of_comment hcomment] at hkey
          rw [Text.find?_cons, Text.find?_cons, if_neg hne, if_neg hne]
          exact ih hrest

/-- Failures of one family at the same path, where comments may differ. -/
def Leeway.Fails (leeway : Leeway) (f g : Failure) : Prop :=
  leeway = .comments → f.SameSource g

theorem Leeway.fails_refl (leeway : Leeway) (f : Failure) : leeway.Fails f f :=
  fun _ => .refl f

theorem AlikeEntries.fails {entries entries' : List (Text × Json)} {cause cause' : Cause}
    (hentries : AlikeEntries leeway language entries entries')
    (hfamily : cause.family = cause'.family) :
    leeway.Fails (failure cause entries) (failure cause' entries') := by
  rintro rfl
  have hname : Text.find? "name" entries = Text.find? "name" entries' :=
    hentries.find?_naming "name" rfl
  simp [failure, Failure.SameSource, hfamily, hname]

theorem AlikeEntries.langs? {entries entries' : List (Text × Json)}
    (hentries : AlikeEntries leeway language entries entries') :
    Option.Rel (AlikeEntries leeway language) (langs? entries) (Availability.langs? entries') := by
  have hlangs := hentries.find? "langs" fun _ => rfl
  unfold Availability.langs?
  generalize Text.find? "langs" entries = langs at hlangs ⊢
  generalize Text.find? "langs" entries' = langs' at hlangs ⊢
  cases hlangs with
  | none => exact .none
  | some hlangs =>
      cases hlangs with
      | obj hlangs => exact .some hlangs
      | _ => exact .none

theorem AlikeEntries.declared? {entries entries' : List (Text × Json)}
    (hentries : AlikeEntries leeway language entries entries') (key : Text)
    (hkey : leeway.Relates key) :
    Option.Rel (Alike leeway language) (declared? key entries)
      (Availability.declared? key entries') := by
  have hlangs := hentries.langs?
  unfold Availability.declared?
  generalize Availability.langs? entries = langs at hlangs ⊢
  generalize Availability.langs? entries' = langs' at hlangs ⊢
  cases hlangs with
  | none => exact .none
  | some hlangs => exact hlangs.find? key hkey

theorem Alike.isText {item item' : Json} {text : Text} (hitem : Alike leeway language item item') :
    item.isText text = item'.isText text := by
  cases hitem <;> rfl

theorem isText_of_excluded {item : Json} {text : Text}
    (hitem : isAvailable language item = .ok false) : item.isText text = false := by
  cases item <;> first | rfl | simp [isAvailable] at hitem

theorem AlikeItems.any_isText {items items' : List Json} {text : Text}
    (hitems : AlikeItems leeway language items items') :
    items.any (Json.isText text) = items'.any (Json.isText text) := by
  induction items generalizing items' with
  | nil =>
      cases hitems
      rfl
  | cons item rest ih =>
      cases hitems with
      | cons hitem hrest => rw [List.any_cons, List.any_cons, hitem.isText, ih hrest]
      | excluded _ hitem hitem' hrest =>
          rw [List.any_cons, List.any_cons, isText_of_excluded hitem, isText_of_excluded hitem',
            ih hrest]

theorem AlikeItems.isEmpty {items items' : List Json}
    (hitems : AlikeItems leeway language items items') : items.isEmpty = items'.isEmpty := by
  cases hitems <;> rfl

theorem Alike.isAvailable {value value' : Json} (hvalue : Alike leeway language value value') :
    Likewise leeway.Fails Eq (isAvailable language value)
      (Availability.isAvailable language value') := by
  cases hvalue with
  | @obj entries entries' hentries =>
      have honly := hentries.declared? "only" fun _ => rfl
      rw [isAvailable_obj, isAvailable_obj]
      generalize Availability.declared? "only" entries = only at honly ⊢
      generalize Availability.declared? "only" entries' = only' at honly ⊢
      cases honly with
      | none => exact .ok rfl
      | some honly =>
          cases honly with
          | arr hallowed => exact .ok (by rw [hallowed.isEmpty, hallowed.any_isText])
          | _ => exact .error (hentries.fails rfl)
  | _ => exact .ok rfl

theorem AlikeEntries.alias? {entries entries' : List (Text × Json)}
    (hentries : AlikeEntries leeway language entries entries')
    (hlanguage : leeway.Relates language) :
    Likewise leeway.Fails Eq (alias? language entries)
      (Availability.alias? language entries') := by
  have haliases := hentries.declared? "aliases" fun _ => rfl
  rw [alias?_eq, alias?_eq]
  generalize Availability.declared? "aliases" entries = aliases at haliases ⊢
  generalize Availability.declared? "aliases" entries' = aliases' at haliases ⊢
  cases haliases with
  | none => exact .ok rfl
  | some haliases =>
      cases haliases with
      | @obj aliases aliases' haliases =>
          have hown := haliases.find? language hlanguage
          dsimp only
          generalize Text.find? language aliases = own at hown ⊢
          generalize Text.find? language aliases' = own' at hown ⊢
          cases hown with
          | none => exact .ok rfl
          | some hown =>
              cases hown with
              | null => exact .ok rfl
              | str name =>
                  dsimp only
                  split
                  next => exact .error (hentries.fails rfl)
                  next => exact .ok rfl
              | _ => exact .error (hentries.fails rfl)
      | _ => exact .error (hentries.fails rfl)

theorem Alike.named {value value' : Json} (hvalue : Alike leeway language value value')
    {name : Text} :
    value.get? "name" = some (.str name) ↔ value'.get? "name" = some (.str name) := by
  cases hvalue with
  | @obj entries entries' hentries =>
      have hname := hentries.find? "name" fun _ => rfl
      dsimp only [Json.get?]
      generalize Text.find? "name" entries = found at hname ⊢
      generalize Text.find? "name" entries' = found' at hname ⊢
      cases hname with
      | none => rfl
      | some hname => cases hname <;> simp
  | _ => rfl

theorem AlikeEntries.givenType? {entries entries' : List (Text × Json)}
    (hentries : AlikeEntries leeway language entries entries')
    (hlanguage : leeway.Relates language) :
    Likewise leeway.Fails (Option.Rel (Alike leeway language)) (givenType? language entries)
      (Availability.givenType? language entries') := by
  have htypes := hentries.declared? "types" fun _ => rfl
  rw [givenType?_eq, givenType?_eq]
  generalize Availability.declared? "types" entries = types at htypes ⊢
  generalize Availability.declared? "types" entries' = types' at htypes ⊢
  cases htypes with
  | none => exact .ok .none
  | some htypes =>
      cases htypes with
      | @obj types types' htypes =>
          have hown := htypes.find? language hlanguage
          dsimp only
          generalize Text.find? language types = own at hown ⊢
          generalize Text.find? language types' = own' at hown ⊢
          cases hown with
          | none => exact .ok .none
          | @some own own' hown =>
              have hnamed := @Alike.named _ _ _ _ hown
              cases hown with
              | null => exact .ok .none
              | str name => exact .ok (.some (.str name))
              | obj hown =>
                  dsimp only
                  split
                  next name hname => rw [hnamed.mp hname]; exact .ok (.some (.obj hown))
                  next hunnamed =>
                    split
                    next name hname => exact absurd (hnamed.mpr hname) (hunnamed name)
                    next => exact .error (hentries.fails rfl)
              | _ => exact .error (hentries.fails rfl)
      | _ => exact .error (hentries.fails rfl)

theorem AlikeEntries.reachesTypes {entries entries' : List (Text × Json)}
    (hentries : AlikeEntries leeway language entries entries') :
    reachesTypes language entries = Availability.reachesTypes language entries' := by
  have hlangs := hentries.langs?
  unfold Availability.reachesTypes
  generalize Availability.langs? entries = langs at hlangs ⊢
  generalize Availability.langs? entries' = langs' at hlangs ⊢
  cases hlangs with
  | none => rfl
  | @some langs langs' hlangs =>
      have havailable := Alike.isAvailable (.obj hlangs)
      have htypes := hlangs.find? "types" fun _ => rfl
      dsimp only
      generalize Availability.isAvailable language (.obj langs) = available at havailable ⊢
      generalize Availability.isAvailable language (.obj langs') = available' at havailable ⊢
      generalize Text.find? "types" langs = types at htypes ⊢
      generalize Text.find? "types" langs' = types' at htypes ⊢
      cases havailable with
      | error => cases htypes <;> rfl
      | @ok available available' hsame =>
          subst hsame
          cases available with
          | false => cases htypes <;> rfl
          | true =>
              cases htypes with
              | none => rfl
              | @some types types' htypes =>
                  have havailable := htypes.isAvailable
                  dsimp only
                  generalize Availability.isAvailable language types = reached at havailable ⊢
                  generalize Availability.isAvailable language types' = reached' at havailable ⊢
                  cases havailable with
                  | error => rfl
                  | ok hsame => exact hsame

/-! ## Restricting what is alike -/

mutual

theorem Alike.refl (value : Json) : Alike leeway language value value := by
  cases value with
  | null => exact .null
  | bool b => exact .bool b
  | int n => exact .int n
  | float x => exact .float x
  | str text => exact .str text
  | arr items => exact .arr (AlikeItems.refl items)
  | obj entries => exact .obj (AlikeEntries.refl entries)
termination_by structural value

theorem AlikeItems.refl (items : List Json) : AlikeItems leeway language items items := by
  cases items with
  | nil => exact .nil
  | cons item rest => exact .cons (Alike.refl item) (AlikeItems.refl rest)
termination_by structural items

theorem AlikeEntries.refl (entries : List (Text × Json)) :
    AlikeEntries leeway language entries entries := by
  cases entries with
  | nil => exact .nil
  | cons entry rest =>
      obtain ⟨key, value⟩ := entry
      exact .cons (Alike.refl value) (fun _ _ => rfl) (AlikeEntries.refl rest)
termination_by structural entries

end

mutual

/-- Without leeway, only equal values are alike. -/
theorem Alike.eq (value value' : Json) (hvalue : Alike .none language value value') :
    value = value' := by
  cases value with
  | arr items =>
      cases hvalue with
      | arr hitems => rw [AlikeItems.eq items _ hitems]
  | obj entries =>
      cases hvalue with
      | obj hentries => rw [AlikeEntries.eq entries _ hentries]
  | _ =>
      cases hvalue
      rfl
termination_by structural value

theorem AlikeItems.eq (items items' : List Json)
    (hitems : AlikeItems .none language items items') : items = items' := by
  cases items with
  | nil =>
      cases hitems
      rfl
  | cons item rest =>
      cases hitems with
      | cons hitem hrest => rw [Alike.eq item _ hitem, AlikeItems.eq rest _ hrest]
      | excluded hleeway => cases hleeway
termination_by structural items

theorem AlikeEntries.eq (entries entries' : List (Text × Json))
    (hentries : AlikeEntries .none language entries entries') : entries = entries' := by
  cases entries with
  | nil =>
      cases hentries
      rfl
  | cons entry rest =>
      obtain ⟨key, value⟩ := entry
      cases hentries with
      | cons hvalue _ hrest => rw [Alike.eq value _ hvalue, AlikeEntries.eq rest _ hrest]
      | comment hleeway => cases hleeway
termination_by structural entries

end

theorem AlikeEntries.append {first first' second second' : List (Text × Json)}
    (hfirst : AlikeEntries leeway language first first')
    (hsecond : AlikeEntries leeway language second second') :
    AlikeEntries leeway language (first ++ second) (first' ++ second') := by
  induction first generalizing first' with
  | nil =>
      cases hfirst
      exact hsecond
  | cons entry rest ih =>
      cases hfirst with
      | cons hvalue hnaming hrest => exact .cons hvalue hnaming (ih hrest)
      | comment hleeway hkey hrest => exact .comment hleeway hkey (ih hrest)

theorem AlikeEntries.setName {entries entries' : List (Text × Json)} (name : Text)
    (hentries : AlikeEntries leeway language entries entries') :
    AlikeEntries leeway language (Json.setEntry "name" (.str name) entries)
      (Json.setEntry "name" (.str name) entries') := by
  induction entries generalizing entries' with
  | nil =>
      cases hentries
      exact .refl _
  | cons entry rest ih =>
      cases hentries with
      | cons hvalue hnaming hrest =>
          rw [Json.setEntry, Json.setEntry]
          split
          next => exact .cons (.refl _) (fun _ _ => rfl) hrest
          next => exact .cons hvalue hnaming (ih hrest)
      | @comment key _ _ _ _ hleeway hkey hrest =>
          have hne : key ≠ "name" := by
            rintro rfl
            cases hkey
          rw [Json.setEntry, Json.setEntry, if_neg hne, if_neg hne]
          exact .comment hleeway hkey (ih hrest)

/-- The outcomes of restricting two entries are alike. -/
def OutcomesAlike (leeway : Leeway) (language : Text) : Outcome → Outcome → Prop :=
  Likewise leeway.Fails fun a b => Option.Rel (Alike leeway.rest language) a.1 b.1 ∧ a.2 = b.2

/-- Restricting two values leaves values that are alike, and drops equally many nodes. -/
def RestrictAlike (leeway : Leeway) (language : Text) (value value' : Json) : Prop :=
  Likewise leeway.Fails (fun a b => Alike leeway.rest language a.1 b.1 ∧ a.2 = b.2)
    (restrictAt language [] value) (restrictAt language [] value')

theorem OutcomesAlike.refl (outcome : Outcome) : OutcomesAlike leeway language outcome outcome := by
  refine Likewise.refl leeway.fails_refl (fun a => ⟨?_, rfl⟩) outcome
  cases a.1 with
  | none => exact .none
  | some value => exact .some (.refl value)

theorem plainOutcome_alike {value value' : Json} (hvalue : Alike leeway language value value')
    (hrun : RestrictAlike leeway language value value') :
    OutcomesAlike leeway language (plainOutcome language value) (plainOutcome language value') := by
  apply Likewise.bind hvalue.isAvailable
  rintro available _ rfl
  cases available with
  | false => exact .ok ⟨.none, rfl⟩
  | true =>
      apply Likewise.bind hrun
      rintro ⟨left, dropped⟩ ⟨left', _⟩ ⟨hleft, rfl⟩
      exact .ok ⟨.some hleft, rfl⟩

theorem givenOutcome_alike {entries entries' : List (Text × Json)} {given given' : Json}
    (hentries : AlikeEntries leeway language entries entries')
    (hgiven : Alike leeway language given given')
    (hrun : RestrictAlike leeway language given given') :
    OutcomesAlike leeway language (givenOutcome language entries given)
      (givenOutcome language entries' given') := by
  have hplain := plainOutcome_alike hgiven hrun
  unfold givenOutcome
  cases hgiven with
  | str name => exact .refl _
  | _ =>
      apply Likewise.bind hplain
      rintro ⟨left, dropped⟩ ⟨left', _⟩ ⟨hleft, rfl⟩
      dsimp only
      rw [hentries.reachesTypes]
      cases hleft with
      | none => exact .ok ⟨.none, rfl⟩
      | some hleft => exact .ok ⟨.some hleft, rfl⟩

theorem restrictItems_alike {items items' : List Json}
    (hrun : ∀ item ∈ items, ∀ item', Alike leeway language item item' →
      RestrictAlike leeway language item item')
    (hitems : AlikeItems leeway language items items') :
    Likewise leeway.Fails (fun a b => AlikeItems leeway.rest language a.1 b.1 ∧ a.2 = b.2)
      (restrictItems language items) (restrictItems language items') := by
  induction items generalizing items' with
  | nil =>
      cases hitems
      exact .ok ⟨.nil, rfl⟩
  | cons item rest ih =>
      obtain ⟨hitem, hothers⟩ := List.forall_mem_cons.mp hrun
      cases hitems with
      | cons hvalue hrest =>
          have hrest := ih hothers hrest
          rw [restrictItems, restrictItems]
          apply Likewise.bind hvalue.isAvailable
          rintro available _ rfl
          cases available with
          | false =>
              apply Likewise.bind hrest
              rintro ⟨others, dropped⟩ ⟨others', _⟩ ⟨hothers, rfl⟩
              exact .ok ⟨hothers, rfl⟩
          | true =>
              apply Likewise.bind (hitem _ hvalue)
              rintro ⟨left, dropped⟩ ⟨left', _⟩ ⟨hleft, rfl⟩
              apply Likewise.bind hrest
              rintro ⟨others, dropped⟩ ⟨others', _⟩ ⟨hothers, rfl⟩
              exact .ok ⟨.cons hleft hothers, rfl⟩
      | excluded _ hexcluded hexcluded' hrest =>
          rw [restrictItems, restrictItems, hexcluded, hexcluded']
          apply Likewise.bind (ih hothers hrest)
          rintro ⟨others, dropped⟩ ⟨others', _⟩ ⟨hothers, rfl⟩
          exact .ok ⟨hothers, rfl⟩

theorem Leeway.rest_eq_comments (hrest : leeway.rest = .comments) : leeway = .comments := by
  cases leeway <;> simp_all [Leeway.rest]

/-- The outcomes for two entries of one key are alike, and where comments may
differ what a node is called by is left as it is. -/
theorem entryOutcome_alike {name type type' : Option Outcome} {key : Text} {value value' : Json}
    (htype : Option.Rel (OutcomesAlike leeway language) type type')
    (hvalue : Alike leeway language value value')
    (hnaming : leeway = .comments → isNamingKey key = true → value = value')
    (hrun : RestrictAlike leeway language value value') :
    Likewise leeway.Fails (fun a b => (Option.Rel (Alike leeway.rest language) a.1 b.1 ∧
        (leeway = .comments → isNamingKey key = true → a.1 = b.1)) ∧ a.2 = b.2)
      (entryOutcome language name type key value)
      (entryOutcome language name type' key value') := by
  have houtcomes : OutcomesAlike leeway language (entryOutcome language name type key value)
      (entryOutcome language name type' key value') := by
    unfold entryOutcome
    split
    next =>
      cases name with
      | none => exact plainOutcome_alike hvalue hrun
      | some outcome => exact .refl outcome
    next =>
      split
      next =>
        cases htype with
        | none => exact plainOutcome_alike hvalue hrun
        | some houtcome => exact houtcome
      next => exact plainOutcome_alike hvalue hrun
  by_cases hkey : leeway = .comments ∧ isNamingKey key = true
  · obtain rfl := hnaming hkey.1 hkey.2
    have hsame : entryOutcome language name type key value =
        entryOutcome language name type' key value := by
      have hne : key ≠ "type" := by
        rintro rfl
        cases hkey.2
      simp [entryOutcome, hne]
    rw [hsame]
    refine .refl leeway.fails_refl (fun a => ⟨⟨?_, fun _ _ => rfl⟩, rfl⟩) _
    cases a.1 with
    | none => exact .none
    | some value => exact .some (.refl value)
  · exact houtcomes.imp (fun _ _ => id) fun a b hends =>
      ⟨⟨hends.1, fun hleeway hname => absurd ⟨hleeway, hname⟩ hkey⟩, hends.2⟩

theorem restrictEntries_alike {name type type' : Option Outcome}
    {entries entries' : List (Text × Json)}
    (htype : Option.Rel (OutcomesAlike leeway language) type type')
    (hrun : ∀ entry ∈ entries, ∀ value', Alike leeway language entry.2 value' →
      RestrictAlike leeway language entry.2 value')
    (hentries : AlikeEntries leeway language entries entries') :
    Likewise leeway.Fails (fun a b => AlikeEntries leeway.rest language a.1 b.1 ∧ a.2 = b.2)
      (restrictEntries language name type entries)
      (restrictEntries language name type' entries') := by
  induction entries generalizing entries' with
  | nil =>
      cases hentries
      exact .ok ⟨.nil, rfl⟩
  | cons entry rest ih =>
      obtain ⟨hentry, hothers⟩ := List.forall_mem_cons.mp hrun
      cases hentries with
      | cons hvalue hnaming hrest =>
          have hrest := ih hothers hrest
          rw [restrictEntries_cons, restrictEntries_cons]
          apply Likewise.bind (entryOutcome_alike htype hvalue hnaming (hentry _ hvalue))
          rintro ⟨left, dropped⟩ ⟨left', _⟩ ⟨⟨hleft, hnaming⟩, rfl⟩
          apply Likewise.bind hrest
          rintro ⟨others, dropped⟩ ⟨others', _⟩ ⟨hothers, rfl⟩
          refine .ok ⟨?_, rfl⟩
          cases hleft with
          | none => exact hothers
          | some hleft =>
              exact .cons hleft (fun hleeway hkey =>
                Option.some.inj (hnaming (Leeway.rest_eq_comments hleeway) hkey)) hothers
      | @comment key text text' _ _ hleeway hkey hrest =>
          have hplain : ∀ (type : Option Outcome) (text : Text),
              entryOutcome language name type key (.str text) = .ok (some (.str text), 0) := by
            have hcases : key = "comment" ∨ key = "returnComment" := by
              simpa [isCommentKey] using hkey
            rintro type text
            rcases hcases with rfl | rfl <;> rfl
          rw [restrictEntries_cons, restrictEntries_cons, hplain, hplain]
          apply Likewise.bind (ih hothers hrest)
          rintro ⟨others, dropped⟩ ⟨others', _⟩ ⟨hothers, rfl⟩
          subst hleeway
          exact .ok ⟨.comment rfl hkey hothers, rfl⟩

theorem AlikeEntries.places {name type type' : Option Outcome}
    {entries entries' : List (Text × Json)}
    (htype : Option.Rel (OutcomesAlike leeway language) type type')
    (hentries : AlikeEntries leeway language entries entries') :
    AlikeEntries leeway language (withPlaces name type entries)
      (withPlaces name type' entries') := by
  have hplace : ∀ (key : Text) (settled settled' : Option Outcome), leeway.Relates key →
      settled.isSome = settled'.isSome → AlikeEntries leeway language
        (placeFor key settled entries) (placeFor key settled' entries') := by
    intro key settled settled' hkey hsettled
    have hfound := hentries.find? key hkey
    unfold placeFor
    rw [hsettled]
    generalize Text.find? key entries = found at hfound ⊢
    generalize Text.find? key entries' = found' at hfound ⊢
    cases hfound with
    | none => exact .refl _
    | some => simpa using AlikeEntries.nil
  have hname := hplace "name" name name (fun _ => rfl) rfl
  have htype := hplace "type" type type' (fun _ => rfl) (by cases htype <;> rfl)
  exact (hentries.append hname).append htype

theorem mem_withPlaces {name type : Option Outcome} {entries : List (Text × Json)}
    {entry : Text × Json} (hentry : entry ∈ withPlaces name type entries) :
    entry ∈ entries ∨ entry.2 = .null := by
  have hplace : ∀ {key : Text} {settled : Option Outcome},
      entry ∈ placeFor key settled entries → entry.2 = .null := by
    intro key settled hentry
    unfold placeFor at hentry
    split at hentry
    next =>
      obtain rfl := List.mem_singleton.mp hentry
      rfl
    next => simp at hentry
  rw [withPlaces, List.mem_append, List.mem_append] at hentry
  rcases hentry with (hentry | hentry) | hentry
  · exact .inl hentry
  · exact .inr (hplace hentry)
  · exact .inr (hplace hentry)

theorem Alike.restrict {value value' : Json} (hlanguage : leeway.Relates language)
    (hvalue : Alike leeway language value value') : RestrictAlike leeway language value value' := by
  induction value using Json.wellFounded_below.induction generalizing value' with
  | _ value ih =>
  cases hvalue with
  | arr hitems =>
      unfold RestrictAlike
      rw [restrictAt, restrictAt]
      apply Likewise.bind (restrictItems_alike (fun item hitem item' hvalue =>
        ih item (.single (.item hitem)) hvalue) hitems)
      rintro ⟨kept, dropped⟩ ⟨kept', _⟩ ⟨hkept, rfl⟩
      exact .ok ⟨.arr hkept, rfl⟩
  | @obj entries entries' hentries =>
      unfold RestrictAlike
      rw [restrictAt_obj, restrictAt_obj]
      apply Likewise.bind (hentries.alias? hlanguage)
      rintro name _ rfl
      have hrenamed : AlikeEntries leeway language
          ((name.map fun name => Json.setEntry "name" (.str name) entries).getD entries)
          ((name.map fun name => Json.setEntry "name" (.str name) entries').getD entries') := by
        cases name with
        | none => exact hentries
        | some name => exact hentries.setName name
      apply Likewise.bind_run (hrenamed.givenType? hlanguage)
      intro given given' hrenamedGiven hgiven
      have hbelow : ∀ type, given = some type → Json.Below type (.obj entries) := by
        rintro type rfl
        apply below_of_givenType?
        cases name with
        | none => exact hrenamedGiven
        | some name => exact givenType?_setName.mp hrenamedGiven
      have htype : Option.Rel (OutcomesAlike leeway language)
          (given.map (givenOutcome language entries))
          (given'.map (givenOutcome language entries')) := by
        cases hgiven with
        | none => exact .none
        | some htype => exact .some (givenOutcome_alike hentries htype (ih _ (hbelow _ rfl) htype))
      have hplaces : ∀ entry ∈ withPlaces (name.map aliasOutcome)
          (given.map (givenOutcome language entries)) entries, ∀ value',
          Alike leeway language entry.2 value' → RestrictAlike leeway language entry.2 value' := by
        intro entry hentry value' hvalue
        rcases mem_withPlaces hentry with hentry | hplace
        · exact ih entry.2 (.single (.value hentry)) hvalue
        · rw [hplace] at hvalue ⊢
          cases hvalue
          exact .ok ⟨.null, rfl⟩
      apply Likewise.bind (restrictEntries_alike htype hplaces (hentries.places htype))
      rintro ⟨kept, dropped⟩ ⟨kept', _⟩ ⟨hkept, rfl⟩
      exact .ok ⟨.obj hkept, rfl⟩
  | _ => exact .ok ⟨.refl _, rfl⟩

end Availability
end ApiBindings
