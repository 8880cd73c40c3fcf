import ApiBindings.Proofs.Resolution.Footprint
/-!
# Runs that mirror a run

Two runs that resolve the same types for the same owners know different things
at the outset: one knows what other interfaces have registered, the other one
less of it or more.  If the first run succeeds, so does its mirror, and with the
same references.  What carries the induction is that the mirror stays within the
catalogue that the first run ends with: each of its global types agrees with the
one of that name there.
-/

namespace ApiBindings

/-- A type derived for an owner is named by a text, or as the settings name the
class of that owner. -/
def Settings.Names (settings : Settings) (owner : Text) (name : Json) : Prop :=
  name.isKey = true ∧ ((∃ text, name = .str text) ∨ settings.className owner = .ok name)

/-- A type that something of this name can have: unless it is replaced, which
makes it not nullable, it is derived. -/
structure Settings.Types (settings : Settings) (owner : Text) (ref : TypeRef) : Prop where
  proper : ref.name.Proper
  nullable : ref.isNullable = true → settings.Names owner ref.name

/-- The fields of a class are typed for their names. -/
structure ClassType.Lawful (settings : Settings) (type : ClassType) : Prop where
  name : type.name.isKey = true
  fields : ∀ field ∈ type.fields, ∃ ref, field.type = some ref ∧
    settings.Types field.name ref

theorem ClassType.Lawful.properNames {settings : Settings} {type : ClassType}
    (hlawful : type.Lawful settings) : type.ProperNames := by
  intro field hfield
  obtain ⟨ref, htype, hproper, -⟩ := hlawful.fields field hfield
  simpa [Field.signature, htype] using hproper

/-- The catalogue has a type that agrees with this one under its name. -/
def Catalogue.Admits (full : Catalogue) : NominalType → Prop
  | .ofClass type => ∃ first,
    full.global? type.name = some (.ofClass first) ∧ first.agrees type = true
  | .ofEnum enum => ∃ first,
    full.global? (.str enum.name) = some (.ofEnum first) ∧ first.values = enum.values

/-- The types of the fields of its global classes are named by proper values. -/
def Catalogue.ProperClasses (full : Catalogue) : Prop :=
  ∀ type, .ofClass type ∈ full.globals → type.ProperNames

/-- The types that replace others and those of the fields of global classes are
named by proper values. -/
structure Resolving.Proper (settings : Settings) (full : Catalogue) : Prop where
  targets : settings.ProperTargets
  classes : full.ProperClasses

/-- The global types known are admitted by a catalogue, and the classes lawful. -/
structure Knowledge.Within (settings : Settings) (full : Catalogue)
    (known : Knowledge) : Prop where
  admitted : ∀ type ∈ known.catalogue.globals, full.Admits type
  lawful : ∀ type, .ofClass type ∈ known.catalogue.globals → type.Lawful settings

theorem Knowledge.within_empty {settings : Settings} {full : Catalogue} :
    Knowledge.empty.Within settings full := by
  constructor <;> simp [Knowledge.empty, Catalogue.empty]

theorem Knowledge.Within.addGlobal {settings : Settings} {full : Catalogue}
    {known : Knowledge} (hwithin : known.Within settings full) {type : NominalType}
    (hadmits : full.Admits type)
    (hlawful : ∀ added, type = .ofClass added → added.Lawful settings) :
    Knowledge.Within settings full
      { known with catalogue := known.catalogue.addGlobal type } where
  admitted added hadded := by
    rcases List.mem_append.mp hadded with hold | hnew
    · exact hwithin.admitted added hold
    · obtain rfl : added = type := by simpa using hnew
      exact hadmits
  lawful added hadded := by
    rcases List.mem_append.mp hadded with hold | hnew
    · exact hwithin.lawful added hold
    · exact hlawful added (by simpa [eq_comm] using hnew)

/-! ## Registering within a catalogue -/

section
variable {settings : Settings} {full : Catalogue} {known : Knowledge}

/-- Where the full catalogue has a class that agrees with this one, so has every
catalogue within it, unless it has nothing under that name. -/
theorem Knowledge.Within.global?_class (hwithin : known.Within settings full)
    {new first : ClassType} (hkey : new.name.isKey = true)
    (hfirst : first.ProperNames) (hfound : full.global? new.name = some (.ofClass first))
    (hagrees : first.agrees new = true) {type : NominalType}
    (hknown : known.catalogue.global? new.name = some type) :
    ∃ existing, type = .ofClass existing ∧ existing.agrees new = true := by
  obtain ⟨hmem, hsame⟩ := Catalogue.global?_some hknown
  have hkey' : type.name.isKey = true := Json.isKey_of_same hsame ▸ hkey
  have hadmits := hwithin.admitted type hmem
  rw [← Catalogue.global?_congr full hkey' hsame] at hfound
  cases type with
  | ofEnum enum =>
      obtain ⟨first', hfound', -⟩ := hadmits
      simp [NominalType.name, hfound'] at hfound
  | ofClass existing =>
      obtain ⟨first', hfound', hagrees'⟩ := hadmits
      obtain rfl : first' = first := by simpa [NominalType.name, hfound'] using hfound
      have hexisting := (hwithin.lawful existing hmem).properNames
      exact ⟨existing, rfl,
        ClassType.agrees_trans (ClassType.agrees_symm hfirst hexisting hagrees') hagrees⟩

theorem Knowledge.Within.global?_enum (hwithin : known.Within settings full)
    {name : Text} {first : EnumType}
    (hfound : full.global? (.str name) = some (.ofEnum first)) {type : NominalType}
    (hknown : known.catalogue.global? (.str name) = some type) :
    ∃ existing, type = .ofEnum existing ∧ existing.values = first.values := by
  obtain ⟨hmem, hsame⟩ := Catalogue.global?_some hknown
  have hname : type.name = .str name := Json.same_str_right.mp hsame
  have hadmits := hwithin.admitted type hmem
  cases type with
  | ofClass existing =>
      obtain ⟨first', hfound', -⟩ := hadmits
      rw [NominalType.name] at hname
      simp [hname, hfound] at hfound'
  | ofEnum existing =>
      obtain ⟨first', hfound', hvalues⟩ := hadmits
      obtain rfl : existing.name = name := by simpa [NominalType.name] using hname
      obtain rfl : first' = first := by simpa [hfound'] using hfound
      exact ⟨existing, rfl, hvalues.symm⟩

end

namespace Resolving

/-! ## Steps that follow each other -/

/-- Whenever the first step succeeds within the full catalogue, so does the
second one, and what the results and the knowledge then have in common is `post`. -/
structure Follows {α : Type} (full : Catalogue) (pre : Knowledge → Knowledge → Prop)
    (step mirror : Resolving α) (post : α → α → Knowledge → Knowledge → Prop) : Prop where
  grows : ∀ known : Knowledge, known.GrowsTo (step.outcome known).2
  follows : ∀ {known known' after : Knowledge} {a : α}, pre known known' →
    step.outcome known = (.ok a, after) → after.catalogue.GrowsTo full →
    ∃ b after', mirror.outcome known' = (.ok b, after') ∧ post a b after after'

/-- The two results are the same. -/
def Same {α : Type} (post : α → Knowledge → Knowledge → Prop) (a b : α)
    (known known' : Knowledge) : Prop :=
  a = b ∧ post a known known'

section
variable {α β : Type} {full : Catalogue} {pre : Knowledge → Knowledge → Prop}
  {step mirror : Resolving α} {next next' : α → Resolving β}
  {post : β → β → Knowledge → Knowledge → Prop}

theorem Follows.pure {a b : β}
    (hpost : ∀ known known', pre known known' → post a b known known') :
    Follows full pre (pure a) (pure b) post where
  grows known := .refl known
  follows hpre hrun _ := by
    obtain ⟨rfl, rfl⟩ : _ = _ ∧ _ = _ := by simpa using hrun
    exact ⟨b, _, rfl, hpost _ _ hpre⟩

theorem Follows.throw {failure failure' : Failure} :
    Follows full pre (throw failure) (throw failure') post where
  grows known := .refl known
  follows _ hrun _ := by simp at hrun

theorem Follows.bind {M : α → α → Knowledge → Knowledge → Prop}
    (hfirst : Follows full pre step mirror M)
    (hnext : ∀ a b, Follows full (M a b) (next a) (next' b) post) :
    Follows full pre (step >>= next) (mirror >>= next') post where
  grows known := by
    have hstep := hfirst.grows known
    rw [outcome_bind]
    rcases hrun : step.outcome known with ⟨result, after⟩
    rw [hrun] at hstep
    cases result with
    | error failure => exact hstep
    | ok a => exact hstep.trans ((hnext a a).grows after)
  follows hpre hrun hfull := by
    obtain ⟨a, middle, hstep, hrun⟩ := outcome_bind_ok hrun
    have hmiddle : middle.catalogue.GrowsTo full := by
      have hgrown := (hnext a a).grows middle
      rw [hrun] at hgrown
      exact hgrown.catalogue.trans hfull
    obtain ⟨b, middle', hmirror, hmid⟩ := hfirst.follows hpre hstep hmiddle
    obtain ⟨c, after', hrun', hpost⟩ := (hnext a b).follows hmid hrun hfull
    refine ⟨c, after', ?_, hpost⟩
    rw [outcome_bind, hmirror]
    exact hrun'

theorem Follows.bind_same {M : α → Knowledge → Knowledge → Prop}
    (hfirst : Follows full pre step mirror (Same M))
    (hnext : ∀ a, Follows full (M a) (next a) (next' a) post) :
    Follows full pre (step >>= next) (mirror >>= next') post := by
  refine hfirst.bind fun a b => ⟨(hnext a).grows, ?_⟩
  rintro known known' after c ⟨rfl, hmid⟩ hrun hfull
  exact (hnext a).follows hmid hrun hfull

theorem Follows.ofExcept {result : Except Failure β}
    (hpost : ∀ b known known', pre known known' → post b b known known') :
    Follows full pre (Resolving.ofExcept result) (Resolving.ofExcept result) post := by
  cases result with
  | error failure => exact .throw
  | ok b => exact .pure fun known known' hpre => hpost b known known' hpre

theorem Follows.ofExcept_bind {result : Except Failure α}
    (hnext : ∀ a, result = .ok a → Follows full pre (next a) (next' a) post) :
    Follows full pre (Resolving.ofExcept result >>= next)
      (Resolving.ofExcept result >>= next') post := by
  cases result with
  | error failure => exact .throw
  | ok a => exact hnext a rfl

theorem Follows.get_bind {next next' : Knowledge → Resolving β}
    (hgrows : ∀ known : Knowledge, known.GrowsTo ((next known).outcome known).2)
    (hnext : ∀ known known', pre known known' →
      Follows full (fun k k' => k = known ∧ k' = known') (next known) (next' known') post) :
    Follows full pre (get >>= next) (get >>= next') post where
  grows known := by
    rw [outcome_get_bind]
    exact hgrows known
  follows {known known' after a} hpre hrun hfull := by
    rw [outcome_get_bind] at hrun ⊢
    exact (hnext known known' hpre).follows ⟨rfl, rfl⟩ hrun hfull

theorem Follows.imp {pre' : Knowledge → Knowledge → Prop}
    {post' : β → β → Knowledge → Knowledge → Prop} {step mirror : Resolving β}
    (hstep : Follows full pre step mirror post)
    (hpre : ∀ known known', pre' known known' → pre known known')
    (hpost : ∀ a b known known', post a b known known' → post' a b known known') :
    Follows full pre' step mirror post' where
  grows := hstep.grows
  follows hpre' hrun hfull := by
    obtain ⟨b, after', hrun', hpost'⟩ := hstep.follows (hpre _ _ hpre') hrun hfull
    exact ⟨b, after', hrun', hpost _ _ _ _ hpost'⟩

/-- What either step keeps is still there after both. -/
theorem Follows.frame {step mirror : Resolving β} (keep keep' : Knowledge → Prop)
    (hstep : Follows full pre step mirror post)
    (hkeep : ∀ known, keep known → keep (step.outcome known).2)
    (hkeep' : ∀ known, keep' known → keep' (mirror.outcome known).2) :
    Follows full (fun known known' => pre known known' ∧ keep known ∧ keep' known')
      step mirror
      (fun a b known known' => post a b known known' ∧ keep known ∧ keep' known') where
  grows := hstep.grows
  follows hpre hrun hfull := by
    obtain ⟨hpre, hknown, hknown'⟩ := hpre
    obtain ⟨b, after', hrun', hpost⟩ := hstep.follows hpre hrun hfull
    have hafter := hkeep _ hknown
    have hafter' := hkeep' _ hknown'
    rw [hrun] at hafter
    rw [hrun'] at hafter'
    exact ⟨b, after', hrun', hpost, hafter, hafter'⟩

end

/-! ## Additions -/

/-- The mirror is within the full catalogue, and the interface has the same local
classes in both runs. -/
structure Mirrors (settings : Settings) (full : Catalogue) (interface : Text)
    (known known' : Knowledge) : Prop where
  within : known'.Within settings full
  locals : known.catalogue.localClasses interface = known'.catalogue.localClasses interface

section
variable {settings : Settings} {full : Catalogue} {interface : Text}

theorem Mirrors.of_catalogues {known known' after after' : Knowledge}
    (hmirrors : Mirrors settings full interface known known')
    (hcatalogue : after.catalogue = known.catalogue)
    (hcatalogue' : after'.catalogue = known'.catalogue) :
    Mirrors settings full interface after after' where
  within := ⟨by rw [hcatalogue']; exact hmirrors.within.admitted,
    by rw [hcatalogue']; exact hmirrors.within.lawful⟩
  locals := by rw [hcatalogue, hcatalogue']; exact hmirrors.locals

theorem follows_onCatalogue {α : Type} {pre : Knowledge → Knowledge → Prop}
    {step : Catalogue → Except Failure (α × Catalogue)}
    {post : α → α → Knowledge → Knowledge → Prop}
    (hgrows : ∀ {catalogue after a}, step catalogue = .ok (a, after) →
      catalogue.GrowsTo after)
    (hfollows : ∀ {known known' a after}, pre known known' →
      step known.catalogue = .ok (a, after) → after.GrowsTo full →
      ∃ b after', step known'.catalogue = .ok (b, after') ∧
        post a b { known with catalogue := after } { known' with catalogue := after' }) :
    Follows full pre (onCatalogue step) (onCatalogue step) post where
  grows known := by
    rw [outcome_onCatalogue]
    cases hstep : step known.catalogue with
    | error failure => exact .refl _
    | ok result => exact ⟨hgrows hstep, List.suffix_rfl⟩
  follows {known known' after a} hpre hrun hfull := by
    rw [outcome_onCatalogue] at hrun
    cases hstep : step known.catalogue with
    | error failure => simp [hstep] at hrun
    | ok result =>
        obtain ⟨a', catalogue⟩ := result
        rw [hstep] at hrun
        obtain ⟨rfl, rfl⟩ : a' = a ∧ { known with catalogue } = after := by simpa using hrun
        obtain ⟨b, catalogue', hstep', hpost⟩ := hfollows hpre hstep hfull
        refine ⟨b, { known' with catalogue := catalogue' }, ?_, hpost⟩
        rw [outcome_onCatalogue, hstep']

theorem Mirrors.enumFor {known known' : Knowledge} {name path : Text}
    {members : List TypeNode} {enum : EnumType} {after : Catalogue}
    (hmirrors : Mirrors settings full interface known known')
    (hadd : known.catalogue.enumFor name path members = .ok (enum, after))
    (hfull : after.GrowsTo full) :
    ∃ enum' after', known'.catalogue.enumFor name path members = .ok (enum', after') ∧
      enum'.name = enum.name ∧ Mirrors settings full interface
        { known with catalogue := after } { known' with catalogue := after' } := by
  obtain ⟨hname, hfound⟩ := Catalogue.enumFor_found hadd
  obtain ⟨values, hvalues, hcases⟩ := Catalogue.enumFor_ok hadd
  have hnonempty : name ≠ "" := by
    rintro rfl
    simp [Catalogue.enumFor, bind, Except.bind, throw, throwThe, MonadExceptOf.throw] at hadd
  have hadmitted : full.global? (.str name) = some (.ofEnum enum) :=
    hfull.global? hfound
  have henum : enum.values = values := by
    obtain ⟨-, rfl, -⟩ | ⟨-, hvalues, -⟩ := hcases
    · rfl
    · exact hvalues
  have hlocals : after.localClasses interface = known.catalogue.localClasses interface := by
    obtain ⟨-, -, rfl⟩ | ⟨-, -, rfl⟩ := hcases <;> rfl
  have hrun : known'.catalogue.enumFor name path members =
      known'.catalogue.addEnum ⟨name, values, path⟩ := by
    simp [Catalogue.enumFor, hnonempty, hvalues, bind, Except.bind]
  cases hglobal : known'.catalogue.global? (.str name) with
  | none =>
      refine ⟨⟨name, values, path⟩, known'.catalogue.addGlobal (.ofEnum ⟨name, values, path⟩),
        ?_, hname.symm, ?_, hlocals.trans hmirrors.locals⟩
      · rw [hrun, Catalogue.addEnum, hglobal]
      · exact hmirrors.within.addGlobal ⟨enum, hadmitted, henum⟩ (by simp)
  | some type =>
      obtain ⟨existing, rfl, hexisting⟩ := hmirrors.within.global?_enum hadmitted hglobal
      have hsame : existing.values = values := hexisting.trans henum
      have hfound' := (Catalogue.global?_some hglobal).2
      have hname' : existing.name = name := by
        simpa [NominalType.name] using Json.same_str_right.mp hfound'
      refine ⟨existing, known'.catalogue, ?_, hname'.trans hname.symm, hmirrors.within,
        hlocals.trans hmirrors.locals⟩
      rw [hrun, Catalogue.addEnum, hglobal]
      simp [hsame]

theorem Mirrors.openOwner {known known' : Knowledge}
    (hmirrors : Mirrors settings full interface known known') (owner : Text) :
    Mirrors settings full interface
      { known with catalogue := known.catalogue.openOwner owner }
      { known' with catalogue := known'.catalogue.openOwner owner } where
  within := ⟨hmirrors.within.admitted, hmirrors.within.lawful⟩
  locals := by
    simp only [Catalogue.localClasses_openOwner]
    exact hmirrors.locals

/-- A local class is found or added in both runs, as they know the same ones. -/
theorem Mirrors.addLocalClass {known known' : Knowledge} {new type : ClassType}
    {after : Catalogue} (hscope : new.scope = .ownerLocal) (howner : new.owner = some interface)
    (hmirrors : Mirrors settings full interface known known')
    (hadd : known.catalogue.addClass new = .ok (type, after)) :
    ∃ type' after', known'.catalogue.addClass new = .ok (type', after') ∧
      Mirrors settings full interface
        { known with catalogue := after } { known' with catalogue := after' } := by
  obtain ⟨hkey, hcases⟩ := Catalogue.addClass_ok hadd
  have hlookup : known'.catalogue.local? interface new.name =
      known.catalogue.local? interface new.name := by
    rw [Catalogue.local?, Catalogue.local?, hmirrors.locals]
  simp only [hscope, howner, Option.getD_some, true_and, reduceCtorEq, false_and,
    or_false] at hcases
  obtain ⟨hfound, rfl⟩ | ⟨hfound, rfl, rfl⟩ := hcases
  · refine ⟨type, known'.catalogue, ?_, hmirrors⟩
    simp [Catalogue.addClass, hkey, hscope, howner, hlookup, hfound]
  · refine ⟨type, known'.catalogue.addLocal interface type, ?_, ?_, ?_⟩
    · simp [Catalogue.addClass, hkey, hscope, howner, hlookup, hfound]
    · exact ⟨hmirrors.within.admitted, hmirrors.within.lawful⟩
    · simp only [Catalogue.localClasses_addLocal, if_true, hmirrors.locals]

/-- A global class is added to the mirror unless it knows one of that name, which
then agrees with it, since both do with the one in the full catalogue. -/
theorem Mirrors.addGlobalClass {known known' : Knowledge} {new type : ClassType}
    {after : Catalogue} (hscope : new.scope = .global) (hproper : full.ProperClasses)
    (hlawful : new.Lawful settings) (hmirrors : Mirrors settings full interface known known')
    (hadd : known.catalogue.addClass new = .ok (type, after))
    (hfull : after.GrowsTo full) :
    ∃ type' after', known'.catalogue.addClass new = .ok (type', after') ∧
      Mirrors settings full interface
        { known with catalogue := after } { known' with catalogue := after' } := by
  obtain ⟨hkey, hcases⟩ := Catalogue.addClass_ok hadd
  simp only [hscope, true_and, reduceCtorEq, false_and, false_or] at hcases
  have hlocals : after.localClasses interface = known.catalogue.localClasses interface := by
    obtain ⟨-, -, rfl⟩ | ⟨-, -, rfl⟩ := hcases <;> rfl
  have hagrees : type.agrees new = true := by
    obtain ⟨-, rfl, -⟩ | ⟨-, hagrees, -⟩ := hcases
    · exact ClassType.agrees_refl hlawful.properNames
    · exact hagrees
  have hfound : full.global? new.name = some (.ofClass type) := by
    obtain ⟨-, hfound⟩ | ⟨hlocal, -⟩ := Catalogue.addClass_found hadd
    · exact hfull.global? hfound
    · exact absurd (hscope.symm.trans hlocal) (by simp)
  have hfirst : type.ProperNames := hproper type (Catalogue.global?_some hfound).1
  -- A catalogue within the full one cannot know another type by this name.
  cases hglobal : known'.catalogue.global? new.name with
  | none =>
      refine ⟨new, known'.catalogue.addGlobal (.ofClass new), ?_, ?_,
        hlocals.trans hmirrors.locals⟩
      · simp [Catalogue.addClass, hkey, hscope, hglobal]
      · refine hmirrors.within.addGlobal ⟨type, hfound, hagrees⟩ ?_
        rintro _ ⟨rfl⟩
        exact hlawful
  | some found =>
      obtain ⟨existing, rfl, hexisting⟩ :=
        hmirrors.within.global?_class hkey hfirst hfound hagrees hglobal
      refine ⟨existing, known'.catalogue, ?_, hmirrors.within,
        hlocals.trans hmirrors.locals⟩
      simp [Catalogue.addClass, hkey, hscope, hglobal, hexisting]

theorem Mirrors.addClass {known known' : Knowledge} {new type : ClassType}
    {after : Catalogue} (hproper : full.ProperClasses) (hlawful : new.Lawful settings)
    (howner : new.scope = .ownerLocal → new.owner = some interface)
    (hmirrors : Mirrors settings full interface known known')
    (hadd : known.catalogue.addClass new = .ok (type, after))
    (hfull : after.GrowsTo full) :
    ∃ type' after', known'.catalogue.addClass new = .ok (type', after') ∧
      Mirrors settings full interface
        { known with catalogue := after } { known' with catalogue := after' } := by
  cases hscope : new.scope with
  | ownerLocal => exact hmirrors.addLocalClass hscope (howner hscope) hadd
  | global => exact hmirrors.addGlobalClass hscope hproper hlawful hadd hfull

end
end Resolving
end ApiBindings
