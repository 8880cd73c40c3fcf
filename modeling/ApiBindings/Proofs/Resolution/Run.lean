import ApiBindings.Resolution
import ApiBindings.Proofs.Nominal.Growth
/-!
# Runs of resolving

A step of resolving takes what is known to an outcome and to what is known
then.  A run of two steps in a row is the run of the first one followed, if it
succeeds, by that of the second one; every fact about a longer run comes from
this.
-/

namespace ApiBindings

/-- What is known grows: the catalogue does, and nothing that was remembered is
forgotten. -/
structure Knowledge.GrowsTo (before after : Knowledge) : Prop where
  catalogue : before.catalogue.GrowsTo after.catalogue
  resolved : before.resolved <:+ after.resolved

theorem Knowledge.GrowsTo.refl (known : Knowledge) : known.GrowsTo known :=
  ⟨.refl _, List.suffix_rfl⟩

theorem Knowledge.GrowsTo.trans {a b c : Knowledge} (hab : a.GrowsTo b)
    (hbc : b.GrowsTo c) : a.GrowsTo c :=
  ⟨hab.catalogue.trans hbc.catalogue, hab.resolved.trans hbc.resolved⟩

namespace Resolving

/-- The outcome of a step, and what is known after it. -/
def outcome {α : Type} (step : Resolving α) (known : Knowledge) :
    Except Failure α × Knowledge :=
  step.run.run known

section
variable {α β : Type}

@[simp] theorem outcome_pure (a : α) (known : Knowledge) :
    outcome (pure a) known = (.ok a, known) := rfl

@[simp] theorem outcome_throw (failure : Failure) (known : Knowledge) :
    outcome (throw failure : Resolving α) known = (.error failure, known) := rfl

@[simp] theorem outcome_get (known : Knowledge) :
    outcome get known = (.ok known, known) := rfl

@[simp] theorem outcome_modify (change : Knowledge → Knowledge) (known : Knowledge) :
    outcome (modify change) known = (.ok ⟨⟩, change known) := rfl

@[simp] theorem outcome_openOwner (owner : Option Text) (known : Knowledge) :
    outcome (openOwner owner) known =
      (.ok (), { known with catalogue := known.catalogue.openOwner (owner.getD []) }) := rfl

@[simp] theorem outcome_ofExcept (result : Except Failure α) (known : Knowledge) :
    outcome (ofExcept result) known = (result, known) := by
  cases result <;> rfl

theorem outcome_bind (first : Resolving α) (next : α → Resolving β)
    (known : Knowledge) :
    outcome (first >>= next) known =
      match outcome first known with
      | (.ok a, after) => outcome (next a) after
      | (.error failure, after) => (.error failure, after) := by
  simp only [outcome, run_bind]
  rcases first.run.run known with ⟨result, after⟩
  cases result <;> rfl

theorem outcome_onCatalogue
    (step : Catalogue → Except Failure (α × Catalogue)) (known : Knowledge) :
    outcome (onCatalogue step) known =
      match step known.catalogue with
      | .ok (a, catalogue) => (.ok a, { known with catalogue })
      | .error failure => (.error failure, known) := by
  unfold onCatalogue
  simp only [outcome_bind, outcome_get]
  rcases step known.catalogue with failure | ⟨a, catalogue⟩ <;> rfl

theorem outcome_onCatalogue_cases (step : Catalogue → Except Failure (α × Catalogue))
    (known : Knowledge) :
    (∃ failure, step known.catalogue = .error failure ∧
        outcome (onCatalogue step) known = (.error failure, known)) ∨
      ∃ a catalogue, step known.catalogue = .ok (a, catalogue) ∧
        outcome (onCatalogue step) known = (.ok a, { known with catalogue }) := by
  rw [outcome_onCatalogue]
  rcases hrun : step known.catalogue with failure | ⟨a, catalogue⟩
  · exact .inl ⟨failure, rfl, rfl⟩
  · exact .inr ⟨a, catalogue, rfl, rfl⟩

theorem outcome_bind_ok {first : Resolving α} {next : α → Resolving β}
    {known after : Knowledge} {b : β}
    (hrun : outcome (first >>= next) known = (.ok b, after)) :
    ∃ a middle, outcome first known = (.ok a, middle) ∧
      outcome (next a) middle = (.ok b, after) :=
  run_bind_ok hrun

theorem outcome_get_bind (next : Knowledge → Resolving α) (known : Knowledge) :
    outcome (get >>= next) known = outcome (next known) known := by
  rw [outcome_bind, outcome_get]

theorem outcome_ofExcept_bind_ok {result : Except Failure α}
    {next : α → Resolving β} {known after : Knowledge} {b : β}
    (hrun : outcome (ofExcept result >>= next) known = (.ok b, after)) :
    ∃ a, result = .ok a ∧ outcome (next a) known = (.ok b, after) := by
  obtain ⟨a, middle, hresult, hrun⟩ := outcome_bind_ok hrun
  obtain ⟨rfl, rfl⟩ : result = .ok a ∧ known = middle := by simpa using hresult
  exact ⟨a, rfl, hrun⟩

/-- Where nothing is remembered a type is replaced or derived, and the result remembered. -/
theorem outcome_resolveType_of_free {settings : Settings} {owner : Owner} {address : Address}
    {type : TypeNode} {known : Knowledge} (hfree : known.resolved.lookup address = none) :
    outcome (resolveType settings owner address type) known =
      match replacement? settings owner.path type.expression with
      | .error failure => (.error failure, known)
      | .ok (some ref) => (.ok ref, { known with resolved := (address, ref) :: known.resolved })
      | .ok none =>
        match outcome (convert settings owner address .outer false none type) known with
        | (.ok (ref, _), after) =>
          (.ok ref, { after with resolved := (address, ref) :: after.resolved })
        | (.error failure, after) => (.error failure, after) := by
  unfold resolveType resolveOnce
  rw [outcome_get_bind, hfree]
  simp only
  rcases replacement? settings owner.path type.expression with failure | replaced
  · rfl
  · rw [outcome_bind, outcome_ofExcept]
    cases replaced with
    | some ref => rfl
    | none =>
        simp only [outcome_bind]
        rcases outcome (convert settings owner address .outer false none type) known with
          ⟨failure | ⟨ref, madeClass⟩, after⟩
        · rfl
        · rfl

/-! ## What a step keeps -/

/-- From what is known, a step only adds to it, keeps `inv` whatever its outcome,
and its result, if there is one, has the property `post`. -/
structure Meets (step : Resolving α) (inv : Knowledge → Prop)
    (post : α → Knowledge → Prop) (known : Knowledge) : Prop where
  grows : known.GrowsTo (step.outcome known).2
  keeps : inv (step.outcome known).2
  result : ∀ a, (step.outcome known).1 = .ok a → post a (step.outcome known).2

variable {inv : Knowledge → Prop} {known : Knowledge}
  {post : α → Knowledge → Prop} {M : α → Knowledge → Prop}

theorem Meets.pure {a : α} (hinv : inv known) (hpost : post a known) :
    Meets (pure a) inv post known where
  grows := .refl _
  keeps := hinv
  result b hb := by
    have heq : a = b := by simpa using hb
    subst heq
    exact hpost

theorem Meets.throw {failure : Failure} (hinv : inv known) :
    Meets (throw failure) inv post known where
  grows := .refl _
  keeps := hinv
  result b hb := by simp at hb

theorem Meets.modify {post : PUnit → Knowledge → Prop}
    {change : Knowledge → Knowledge}
    (hgrows : known.GrowsTo (change known)) (hinv : inv (change known))
    (hpost : post ⟨⟩ (change known)) :
    Meets (modify change) inv post known where
  grows := hgrows
  keeps := hinv
  result _ _ := hpost

theorem Meets.bind {first : Resolving α} {next : α → Resolving β}
    {post : β → Knowledge → Prop} (hfirst : Meets first inv M known)
    (hnext : ∀ a after, known.GrowsTo after → inv after → M a after →
      Meets (next a) inv post after) :
    Meets (first >>= next) inv post known := by
  obtain ⟨hgrows, hkeeps, hresult⟩ := hfirst
  have hbind := outcome_bind first next known
  rcases hrun : outcome first known with ⟨result, after⟩
  rw [hrun] at hbind hgrows hkeeps hresult
  cases result with
  | error failure =>
      constructor
      · rw [hbind]
        exact hgrows
      · rw [hbind]
        exact hkeeps
      · intro b hb
        rw [hbind] at hb
        simp at hb
  | ok a =>
      obtain ⟨hgrows', hkeeps', hresult'⟩ :=
        hnext a after hgrows hkeeps (hresult a rfl)
      constructor
      · rw [hbind]
        exact hgrows.trans hgrows'
      · rw [hbind]
        exact hkeeps'
      · rw [hbind]
        exact hresult'

theorem Meets.get_bind {next : Knowledge → Resolving α}
    (hnext : Meets (next known) inv post known) :
    Meets (get >>= next) inv post known := by
  have hrun := outcome_get_bind next known
  obtain ⟨hgrows, hkeeps, hresult⟩ := hnext
  exact ⟨by rwa [hrun], by rwa [hrun], by rwa [hrun]⟩

theorem Meets.ofExcept {result : Except Failure α} (hinv : inv known) :
    Meets (Resolving.ofExcept result) inv (fun _ _ => True) known := by
  cases result with
  | error failure => exact .throw hinv
  | ok a => exact .pure hinv trivial

theorem Meets.ofExcept_bind {result : Except Failure α} {next : α → Resolving β}
    {post : β → Knowledge → Prop} (hinv : inv known)
    (hnext : ∀ a, result = .ok a → Meets (next a) inv post known) :
    Meets (Resolving.ofExcept result >>= next) inv post known := by
  cases result with
  | error failure => exact .throw hinv
  | ok a =>
      have hrun : outcome (Resolving.ofExcept (.ok a) >>= next) known =
          outcome (next a) known := by
        rw [outcome_bind, outcome_ofExcept]
      obtain ⟨hgrows, hkeeps, hresult⟩ := hnext a rfl
      exact ⟨by rwa [hrun], by rwa [hrun], by rwa [hrun]⟩

/-- What a step on the catalogue keeps is told by the catalogue after it. -/
theorem Meets.onCatalogue {step : Catalogue → Except Failure (α × Catalogue)}
    (hinv : inv known)
    (hok : ∀ a catalogue, step known.catalogue = .ok (a, catalogue) →
      known.catalogue.GrowsTo catalogue ∧ inv { known with catalogue } ∧
        post a { known with catalogue }) :
    Meets (Resolving.onCatalogue step) inv post known := by
  have hrun := outcome_onCatalogue step known
  cases hstep : step known.catalogue with
  | error failure =>
      rw [hstep] at hrun
      exact ⟨by rw [hrun]; exact .refl _, by rw [hrun]; exact hinv,
        by rw [hrun]; simp⟩
  | ok result =>
      obtain ⟨a, catalogue⟩ := result
      rw [hstep] at hrun
      obtain ⟨hgrows, hinv', hpost⟩ := hok a catalogue hstep
      constructor
      · rw [hrun]
        exact ⟨hgrows, List.suffix_rfl⟩
      · rw [hrun]
        exact hinv'
      · intro b hb
        rw [hrun] at hb ⊢
        obtain rfl : a = b := by simpa using hb
        exact hpost

theorem Meets.of_ok {step : Resolving α} {after : Knowledge} {a : α}
    (hstep : Meets step inv post known) (hrun : outcome step known = (.ok a, after)) :
    known.GrowsTo after ∧ inv after ∧ post a after := by
  obtain ⟨hgrows, hkeeps, hresult⟩ := hstep
  rw [hrun] at hgrows hkeeps hresult
  exact ⟨hgrows, hkeeps, hresult a rfl⟩

/-! ## What a step preserves -/

/-- If a property holds before a step it does so after it, whatever the outcome. -/
def Preserves (inv : Knowledge → Prop) (step : Resolving α) : Prop :=
  ∀ known, inv known → inv (step.outcome known).2

theorem Preserves.pure (a : α) : Preserves inv (pure a) :=
  fun _ hinv => hinv

theorem Preserves.modify {change : Knowledge → Knowledge}
    (hchange : ∀ known, inv known → inv (change known)) : Preserves inv (modify change) :=
  hchange

theorem Preserves.ofExcept (result : Except Failure α) :
    Preserves inv (Resolving.ofExcept result) := by
  intro known hinv
  rw [outcome_ofExcept]
  exact hinv

theorem Preserves.bind {first : Resolving α} {next : α → Resolving β}
    (hfirst : Preserves inv first) (hnext : ∀ a, Preserves inv (next a)) :
    Preserves inv (first >>= next) := by
  intro known hinv
  have hmiddle := hfirst known hinv
  rw [outcome_bind]
  generalize outcome first known = ended at hmiddle ⊢
  rcases ended with ⟨failure | a, middle⟩
  · exact hmiddle
  · exact hnext a middle hmiddle

theorem Preserves.throw_bind (failure : Failure) (next : β → Resolving α) :
    Preserves inv ((throw failure : Resolving β) >>= next) :=
  fun _ hinv => hinv

theorem Preserves.get_bind {next : Knowledge → Resolving α}
    (hnext : ∀ known, Preserves inv (next known)) : Preserves inv (get >>= next) := by
  intro known hinv
  rw [outcome_get_bind]
  exact hnext known known hinv

theorem Preserves.onCatalogue {step : Catalogue → Except Failure (α × Catalogue)}
    (hstep : ∀ known a catalogue, inv known → step known.catalogue = .ok (a, catalogue) →
      inv { known with catalogue }) :
    Preserves inv (Resolving.onCatalogue step) := by
  intro known hinv
  rw [outcome_onCatalogue]
  split
  next a catalogue hrun => exact hstep known a catalogue hinv hrun
  next => exact hinv

end

/-- A property of what is known that lasts while types come into the catalogue. -/
structure Lasting (inv : Knowledge → Prop) : Prop where
  openOwner {known : Knowledge} (owner : Text) (hinv : inv known) :
    inv { known with catalogue := known.catalogue.openOwner owner }
  enumFor {known : Knowledge} {name path : Text} {members : List TypeNode} {enum : EnumType}
    {catalogue : Catalogue} (hinv : inv known)
    (hadd : known.catalogue.enumFor name path members = .ok (enum, catalogue)) :
    inv { known with catalogue }
  addClass {known : Knowledge} {new type : ClassType} {catalogue : Catalogue} (hinv : inv known)
    (hadd : known.catalogue.addClass new = .ok (type, catalogue)) :
    inv { known with catalogue }

namespace Lasting

variable {inv : Knowledge → Prop}

theorem preserves_openOwner (hlasting : Lasting inv) (owner : Option Text) :
    Preserves inv (Resolving.openOwner owner) :=
  .modify fun _ hinv => hlasting.openOwner _ hinv

theorem preserves_enumFor (hlasting : Lasting inv) (name path : Text)
    (members : List TypeNode) :
    Preserves inv (onCatalogue (·.enumFor name path members)) :=
  .onCatalogue fun _ _ _ hinv hadd => hlasting.enumFor hinv hadd

theorem preserves_registerClass (hlasting : Lasting inv) (new : ClassType) :
    Preserves inv (registerClass new) := by
  have hadd : Preserves inv (onCatalogue (·.addClass new)) :=
    .onCatalogue fun _ _ _ hinv hadd => hlasting.addClass hinv hadd
  unfold registerClass
  split
  next => exact (hlasting.preserves_openOwner _).bind fun _ => hadd
  next => exact hadd

theorem preserves_classFor (hlasting : Lasting inv) (name : Json) (path : Text) (scope : Scope)
    (owner : Option Text) (isReturnType : Bool) {fields : Resolving (List Field)}
    (hfields : Preserves inv fields) :
    Preserves inv (classFor name path scope owner isReturnType fields) := by
  have hnew : Preserves inv (do
      let fields ← fields
      registerClass { name, fields, scope, path, isReturnType,
                      owner := if scope = .ownerLocal then owner else none }) :=
    hfields.bind fun _ => hlasting.preserves_registerClass _
  unfold classFor
  cases scope with
  | global => exact hnew
  | ownerLocal =>
      simp only [if_true] at hnew ⊢
      refine (hlasting.preserves_openOwner owner).bind fun _ => ?_
      split
      next => exact .throw_bind _ _
      next =>
        refine .get_bind fun known => ?_
        rw [pure_bind]
        split
        next => exact .pure _
        next => exact hnew

end Lasting
end Resolving
end ApiBindings
