import ApiBindings.Proofs.Nominal.Classes
import ApiBindings.Proofs.Resolution.Mirror
/-!
# Resolving does not depend on what happened before

One type may be resolved in two runs that know different things at the outset.  If it is
resolved in both, then to the same reference, and a class that is new in both is the same
class.  A run that knows a local class already does not look at its fields, so that the
classes made for them are new in the other run only.  Nothing is said of those; what is
carried through the fields of a record, where no class is local, is that both runs agree on
all classes that neither of them knew at its outset.
-/

namespace ApiBindings
namespace Resolving

/-! ## Steps of two runs -/

/-- Whenever both steps succeed, their results and what is then known have `post` in common. -/
structure Concurs {α : Type} (pre : Knowledge → Knowledge → Prop) (step step' : Resolving α)
    (post : α → α → Knowledge → Knowledge → Prop) : Prop where
  concurs : ∀ {known known' after after' : Knowledge} {a b : α}, pre known known' →
    step.outcome known = (.ok a, after) → step'.outcome known' = (.ok b, after') →
    post a b after after'

section

variable {α β : Type} {pre : Knowledge → Knowledge → Prop} {step step' : Resolving α}
  {next next' : α → Resolving β} {post : β → β → Knowledge → Knowledge → Prop}

theorem Concurs.pure {a b : β}
    (hpost : ∀ known known', pre known known' → post a b known known') :
    Concurs pre (pure a) (pure b) post where
  concurs {known known' after after' c d} hpre hrun hrun' := by
    obtain ⟨rfl, rfl⟩ : a = c ∧ known = after := by simpa using hrun
    obtain ⟨rfl, rfl⟩ : b = d ∧ known' = after' := by simpa using hrun'
    exact hpost _ _ hpre

theorem Concurs.throw {failure failure' : Failure} :
    Concurs pre (throw failure) (throw failure') post where
  concurs _ hrun _ := by simp at hrun

theorem Concurs.bind {mid : α → α → Knowledge → Knowledge → Prop}
    (hfirst : Concurs pre step step' mid)
    (hnext : ∀ a b, Concurs (mid a b) (next a) (next' b) post) :
    Concurs pre (step >>= next) (step' >>= next') post where
  concurs hpre hrun hrun' := by
    obtain ⟨a, middle, hstep, hrun⟩ := outcome_bind_ok hrun
    obtain ⟨b, middle', hstep', hrun'⟩ := outcome_bind_ok hrun'
    exact (hnext a b).concurs (hfirst.concurs hpre hstep hstep') hrun hrun'

theorem Concurs.bind_same {mid : α → Knowledge → Knowledge → Prop}
    (hfirst : Concurs pre step step' (Same mid))
    (hnext : ∀ a, Concurs (mid a) (next a) (next' a) post) :
    Concurs pre (step >>= next) (step' >>= next') post := by
  refine hfirst.bind fun a b => ⟨?_⟩
  rintro known known' after after' c d ⟨rfl, hmid⟩ hrun hrun'
  exact (hnext a).concurs hmid hrun hrun'

theorem Concurs.ofExcept_bind {result : Except Failure α}
    (hnext : ∀ a, result = .ok a → Concurs pre (next a) (next' a) post) :
    Concurs pre (Resolving.ofExcept result >>= next) (Resolving.ofExcept result >>= next')
      post := by
  cases result with
  | error failure => exact .throw
  | ok a => exact hnext a rfl

theorem Concurs.get_bind {next next' : Knowledge → Resolving β}
    (hnext : ∀ known known', pre known known' →
      Concurs (fun k k' => k = known ∧ k' = known') (next known) (next' known') post) :
    Concurs pre (get >>= next) (get >>= next') post where
  concurs {known known' after after' a b} hpre hrun hrun' := by
    rw [outcome_get_bind] at hrun hrun'
    exact (hnext known known' hpre).concurs ⟨rfl, rfl⟩ hrun hrun'

theorem Concurs.imp {pre' : Knowledge → Knowledge → Prop} {step step' : Resolving β}
    {post' : β → β → Knowledge → Knowledge → Prop} (hstep : Concurs pre step step' post)
    (hpre : ∀ known known', pre' known known' → pre known known')
    (hpost : ∀ a b known known', post a b known known' → post' a b known known') :
    Concurs pre' step step' post' where
  concurs hbefore hrun hrun' := hpost _ _ _ _ (hstep.concurs (hpre _ _ hbefore) hrun hrun')

/-- What either step keeps is still there after both. -/
theorem Concurs.frame {step step' : Resolving β} (keep keep' : Knowledge → Prop)
    (hstep : Concurs pre step step' post)
    (hkeep : ∀ known, keep known → keep (step.outcome known).2)
    (hkeep' : ∀ known, keep' known → keep' (step'.outcome known).2) :
    Concurs (fun known known' => pre known known' ∧ keep known ∧ keep' known') step step'
      (fun a b known known' => post a b known known' ∧ keep known ∧ keep' known') where
  concurs {known known' _ _ _ _} hbefore hrun hrun' := by
    obtain ⟨hpre, hknown, hknown'⟩ := hbefore
    have hafter := hkeep known hknown
    have hafter' := hkeep' known' hknown'
    rw [hrun] at hafter
    rw [hrun'] at hafter'
    exact ⟨hstep.concurs hpre hrun hrun', hafter, hafter'⟩

theorem Concurs.openOwner (name : Option Text) {post : Knowledge → Knowledge → Prop}
    (hpost : ∀ known known', pre known known' →
      post { known with catalogue := known.catalogue.openOwner (name.getD []) }
        { known' with catalogue := known'.catalogue.openOwner (name.getD []) }) :
    Concurs pre (Resolving.openOwner name) (Resolving.openOwner name) (fun _ _ => post) where
  concurs {known known' _ _ _ _} hpre hrun hrun' := by
    rw [outcome_openOwner] at hrun hrun'
    obtain rfl := (Prod.ext_iff.mp hrun).2
    obtain rfl := (Prod.ext_iff.mp hrun').2
    exact hpost known known' hpre

theorem Concurs.onCatalogue {step : Catalogue → Except Failure (α × Catalogue)}
    {post : α → α → Knowledge → Knowledge → Prop}
    (hstep : ∀ {known known' : Knowledge} {after after' : Catalogue} {a b : α},
      pre known known' → step known.catalogue = .ok (a, after) →
      step known'.catalogue = .ok (b, after') →
      post a b { known with catalogue := after } { known' with catalogue := after' }) :
    Concurs pre (Resolving.onCatalogue step) (Resolving.onCatalogue step) post where
  concurs {known known' after after' a b} hpre hrun hrun' := by
    rw [outcome_onCatalogue] at hrun hrun'
    cases hadd : step known.catalogue with
    | error failure => simp [hadd] at hrun
    | ok result =>
        cases hadd' : step known'.catalogue with
        | error failure => simp [hadd'] at hrun'
        | ok result' =>
            rw [hadd] at hrun
            rw [hadd'] at hrun'
            obtain ⟨rfl, rfl⟩ : result.1 = a ∧ _ = after := by simpa using hrun
            obtain ⟨rfl, rfl⟩ : result'.1 = b ∧ _ = after' := by simpa using hrun'
            exact hstep hpre hadd hadd'

end

/-! ## Two runs that resolve one type -/

variable {settings : Settings} {start start' : Catalogue} {owner : Owner}
  {address address' : Address} {made : Option TypeRef}

/-- Two runs are in step if they have added the same classes, but for those that one of
them knew at its outset. -/
def InStep (start start' : Catalogue) (known known' : Knowledge) : Prop :=
  Catalogue.AddedAlike start start' known.catalogue known'.catalogue

/-- Two runs can go on converting a type, each at its own address.  They are in step until a
record has become a class and, where that is the type of a field, also after it. -/
structure Underway (start start' : Catalogue) (owner : Owner) (address address' : Address)
    (made : Option TypeRef) (known known' : Knowledge) : Prop where
  consistent : Catalogue.AddedConsistently start start' known.catalogue known'.catalogue
  inStep : made = none ∨ owner.kind = .field → InStep start start' known known'
  clear : made = none → ∀ position, known.Clear (position :: address)
  clear' : made = none → ∀ position, known'.Clear (position :: address')

/-- Two runs have resolved a type of this kind of owner. -/
structure Concluded (start start' : Catalogue) (kind : OwnerKind) (known known' : Knowledge) :
    Prop where
  consistent : Catalogue.AddedConsistently start start' known.catalogue known'.catalogue
  inStep : kind = .field → InStep start start' known known'

/-- Two runs in step remember nothing at the address of a type. -/
structure Before (start start' : Catalogue) (address address' : Address)
    (known known' : Knowledge) : Prop where
  inStep : InStep start start' known known'
  clear : known.Clear address
  clear' : known'.Clear address'

/-- Two runs in step remember nothing of the properties from this position on. -/
structure BeforeFields (start start' : Catalogue) (address address' : Address)
    (position : Nat) (known known' : Knowledge) : Prop where
  inStep : InStep start start' known known'
  clear : ClearFrom address position known
  clear' : ClearFrom address' position known'

theorem InStep.concluded {known known' : Knowledge} (hstep : InStep start start' known known')
    (kind : OwnerKind) : Concluded start start' kind known known' :=
  ⟨hstep.consistently, fun _ => hstep⟩

theorem InStep.of_class? {known known' after after' : Knowledge}
    (hstep : InStep start start' known known')
    (hsame : after.catalogue.class? = known.catalogue.class?)
    (hsame' : after'.catalogue.class? = known'.catalogue.class?) :
    InStep start start' after after' := by
  unfold InStep Catalogue.AddedAlike at hstep ⊢
  rw [hsame, hsame']
  exact hstep

theorem Underway.of_class? {known known' : Knowledge} {after after' : Catalogue}
    (hunder : Underway start start' owner address address' made known known')
    (hsame : after.class? = known.catalogue.class?)
    (hsame' : after'.class? = known'.catalogue.class?) :
    Underway start start' owner address address' made
      { known with catalogue := after } { known' with catalogue := after' } where
  consistent := by
    have hconsistent := hunder.consistent
    unfold Catalogue.AddedConsistently at hconsistent ⊢
    rw [hsame, hsame']
    exact hconsistent
  inStep hmade := (hunder.inStep hmade).of_class? hsame hsame'
  clear := hunder.clear
  clear' := hunder.clear'

theorem Concluded.underway {known known' : Knowledge} {ref : TypeRef}
    (hconcluded : Concluded start start' owner.kind known known') :
    Underway start start' owner address address' (some ref) known known' where
  consistent := hconcluded.consistent
  inStep hfield := hconcluded.inStep (hfield.resolve_left (by simp))
  clear := by simp
  clear' := by simp

theorem concurs_registerClass (new : ClassType) :
    Concurs (InStep start start') (registerClass new) (registerClass new)
      (fun _ _ => InStep start start') := by
  have hadd : Concurs (InStep start start') (onCatalogue (·.addClass new))
      (onCatalogue (·.addClass new)) (fun _ _ => InStep start start') :=
    .onCatalogue fun hstep hadd hadd' => Catalogue.AddedAlike.addClass hstep hadd hadd'
  unfold registerClass
  split
  next =>
    refine (Concurs.openOwner _ fun known known' hstep => ?_).bind fun _ _ => hadd
    exact hstep.of_class? (Catalogue.class?_openOwner _ _) (Catalogue.class?_openOwner _ _)
  next => exact hadd

/-! ### Finding or making a class -/

section

variable {name : Json} {path interface : Text} {isReturnType : Bool}
  {fields : Resolving (List Field)} {known : Knowledge}

theorem outcome_classFor_found {type : ClassType} (hkey : name.isKey = true)
    (hfound : known.catalogue.local? interface name = some type) :
    outcome (classFor name path .ownerLocal (some interface) isReturnType fields) known =
      (.ok type, { known with catalogue := known.catalogue.openOwner interface }) := by
  simp only [classFor, outcome_bind, outcome_openOwner, hkey, Bool.not_true,
    Bool.false_eq_true, if_false, pure_bind, outcome_get, outcome_pure, Option.getD_some,
    Catalogue.local?_openOwner, hfound]

theorem outcome_classFor_new (hkey : name.isKey = true)
    (hnew : known.catalogue.local? interface name = none) :
    outcome (classFor name path .ownerLocal (some interface) isReturnType fields) known =
      outcome (fields >>= fun fields => registerClass
          { name, fields, scope := .ownerLocal, path, isReturnType, owner := some interface })
        { known with catalogue := known.catalogue.openOwner interface } := by
  simp only [classFor, outcome_bind, outcome_openOwner, hkey, Bool.not_true,
    Bool.false_eq_true, if_false, pure_bind, outcome_get, Option.getD_some,
    Catalogue.local?_openOwner, hnew, if_true]

end

/-- Of two runs that are in step, one may find a local class that the other one makes. -/
theorem concurs_classFor_local {name : Json} {path : Text} {isReturnType : Bool}
    {fields fields' : Resolving (List Field)} (hkey : name.isKey = true)
    (hfields : Concurs (Underway start start' owner address address' none) fields fields'
      (Same fun _ => InStep start start'))
    (hgrows : ∀ known : Knowledge, known.GrowsTo (outcome
      (classFor name path .ownerLocal (some owner.interface) isReturnType fields) known).2)
    (hgrows' : ∀ known : Knowledge, known.GrowsTo (outcome
      (classFor name path .ownerLocal (some owner.interface) isReturnType fields') known).2) :
    Concurs (Underway start start' owner address address' none)
      (classFor name path .ownerLocal (some owner.interface) isReturnType fields)
      (classFor name path .ownerLocal (some owner.interface) isReturnType fields')
      (fun _ _ known known' => Catalogue.AddedConsistently start start'
        known.catalogue known'.catalogue) where
  concurs {known known' after after' type type'} hunder hrun hrun' := by
    have hstep : InStep start start' known known' := hunder.inStep (.inl rfl)
    have hgrown := hgrows known
    have hgrown' := hgrows' known'
    rw [hrun] at hgrown
    rw [hrun'] at hgrown'
    cases hlocal : known.catalogue.local? owner.interface name with
    | some found =>
        rw [outcome_classFor_found hkey hlocal] at hrun
        obtain rfl := (Prod.ext_iff.mp hrun).2
        cases hlocal' : known'.catalogue.local? owner.interface name with
        | some found' =>
            rw [outcome_classFor_found hkey hlocal'] at hrun'
            obtain rfl := (Prod.ext_iff.mp hrun').2
            exact (hstep.of_class? (Catalogue.class?_openOwner _ _)
              (Catalogue.class?_openOwner _ _)).consistently
        | none =>
            -- The first run skips the fields, so that what the second one adds is new to it alone.
            exact (hstep.of_class? (Catalogue.class?_openOwner _ _) rfl).grow_right
              hgrown'.catalogue
    | none =>
        rw [outcome_classFor_new hkey hlocal] at hrun
        cases hlocal' : known'.catalogue.local? owner.interface name with
        | some found' =>
            rw [outcome_classFor_found hkey hlocal'] at hrun'
            obtain rfl := (Prod.ext_iff.mp hrun').2
            exact (hstep.of_class? rfl (Catalogue.class?_openOwner _ _)).grow_left
              hgrown.catalogue
        | none =>
            rw [outcome_classFor_new hkey hlocal'] at hrun'
            have hnew : Concurs (Underway start start' owner address address' none) _ _
                (fun _ _ => InStep start start') :=
              hfields.bind_same fun fields => concurs_registerClass
                ⟨name, fields, .ownerLocal, some owner.interface, path, isReturnType⟩
            have hopened := hunder.of_class? (Catalogue.class?_openOwner _ owner.interface)
              (Catalogue.class?_openOwner _ owner.interface)
            exact (hnew.concurs hopened hrun hrun').consistently

theorem growsTo_classFor {plan : ClassPlan} (hplan : ClassPlan.of settings owner = .ok plan)
    (path className : Text) (position : Nat) (properties : List (Slot TypeNode))
    (known : Knowledge) :
    known.GrowsTo (outcome
      (classFor plan.name path plan.scope plan.owner plan.isReturnType
        (convertFields settings owner address className position properties)) known).2 := by
  have huntouched : ∀ known : Knowledge, known.Untouched [] fun _ => False :=
    fun _ => ⟨by simp, by simp⟩
  have hderives : (untouchedContract settings [] fun _ => False).derives owner address :=
    ⟨by simp, by simp⟩
  exact (Contract.meets_classFor hderives (huntouched known) hplan fun before _ =>
    Contract.meets_convertFields className position properties hderives (huntouched before)).grows

theorem concurs_classFor {plan : ClassPlan} {path : Text}
    {fields fields' : Resolving (List Field)}
    (hplan : ClassPlan.of settings owner = .ok plan)
    (hfields : Concurs (Underway start start' owner address address' none) fields fields'
      (Same fun _ => InStep start start'))
    (hgrows : ∀ known : Knowledge, known.GrowsTo (outcome
      (classFor plan.name path plan.scope plan.owner plan.isReturnType fields) known).2)
    (hgrows' : ∀ known : Knowledge, known.GrowsTo (outcome
      (classFor plan.name path plan.scope plan.owner plan.isReturnType fields') known).2) :
    Concurs (Underway start start' owner address address' none)
      (classFor plan.name path plan.scope plan.owner plan.isReturnType fields)
      (classFor plan.name path plan.scope plan.owner plan.isReturnType fields')
      (fun _ _ => Concluded start start' owner.kind) := by
  obtain ⟨hscope, -, -⟩ | ⟨hscope, howner, hkind, text, htext⟩ := ClassPlan.of_ok hplan
  · rw [hscope]
    have hnew := hfields.bind_same fun fields => concurs_registerClass
      (plan.classType path fields)
    simp only [ClassPlan.classType, hscope] at hnew
    exact hnew.imp (fun _ _ h => h) fun _ _ _ _ h => h.concluded _
  · have hkey : plan.name.isKey = true := htext ▸ rfl
    rw [hscope, howner] at hgrows hgrows' ⊢
    exact (concurs_classFor_local hkey hfields hgrows hgrows').imp (fun _ _ h => h)
      fun _ _ _ _ h => ⟨h, fun hfield => absurd hfield hkind⟩

/-! ### Remembering -/

theorem concurs_remember {pre : Knowledge → Knowledge → Prop} {ref : TypeRef}
    (hpre : ∀ known known', pre known known' →
      Concluded start start' owner.kind known known') :
    Concurs pre
      (do
        modify fun known : Knowledge =>
          { known with resolved := (address, ref) :: known.resolved }
        pure ref)
      (do
        modify fun known : Knowledge =>
          { known with resolved := (address', ref) :: known.resolved }
        pure ref)
      (Same fun _ => Concluded start start' owner.kind) where
  concurs hbefore hrun hrun' := by
    rw [outcome_bind, outcome_modify] at hrun hrun'
    obtain ⟨rfl, rfl⟩ : ref = _ ∧ _ = _ := by simpa using hrun
    obtain ⟨rfl, rfl⟩ : ref = _ ∧ _ = _ := by simpa using hrun'
    exact ⟨rfl, (hpre _ _ hbefore).consistent, (hpre _ _ hbefore).inStep⟩

theorem concurs_resolveOnce {expression : Text} {derived derived' : Resolving TypeRef}
    (hderived : Concurs (Underway start start' owner address address' none) derived derived'
      (Same fun _ => Concluded start start' owner.kind)) :
    Concurs (Before start start' address address')
      (resolveOnce settings owner address expression derived)
      (resolveOnce settings owner address' expression derived')
      (Same fun _ => Concluded start start' owner.kind) := by
  unfold resolveOnce
  refine .get_bind fun known known' hbefore => ?_
  rw [hbefore.clear.lookup, hbefore.clear'.lookup]
  refine .ofExcept_bind fun replaced _ => ?_
  cases replaced with
  | some ref =>
      refine concurs_remember ?_
      rintro _ _ ⟨rfl, rfl⟩
      exact hbefore.inStep.concluded _
  | none =>
      refine (hderived.bind_same fun ref => concurs_remember fun _ _ h => h).imp ?_
        fun _ _ _ _ h => h
      rintro _ _ ⟨rfl, rfl⟩
      exact ⟨hbefore.inStep.consistently, fun _ => hbefore.inStep,
        fun _ => hbefore.clear.below, fun _ => hbefore.clear'.below⟩

theorem concurs_enumFor {name path : Text} {members : List TypeNode} :
    Concurs (Underway start start' owner address address' made)
      (onCatalogue (·.enumFor name path members)) (onCatalogue (·.enumFor name path members))
      (fun enum enum' known known' => enum'.name = enum.name ∧
        Underway start start' owner address address' made known known') :=
  .onCatalogue fun hunder hadd hadd' =>
    ⟨(Catalogue.enumFor_found hadd').1.trans (Catalogue.enumFor_found hadd).1.symm,
      hunder.of_class? (Catalogue.class?_enumFor hadd) (Catalogue.class?_enumFor hadd')⟩

/-! ### The induction -/

theorem concurs_resolveType_of {type : TypeNode}
    (hconvert : Concurs (Underway start start' owner address address' none)
      (convert settings owner address .outer false none type)
      (convert settings owner address' .outer false none type)
      (Same fun result => Underway start start' owner address address' result.2)) :
    Concurs (Before start start' address address')
      (resolveType settings owner address type) (resolveType settings owner address' type)
      (Same fun _ => Concluded start start' owner.kind) := by
  refine concurs_resolveOnce (hconvert.bind_same ?_)
  rintro ⟨ref, made⟩
  exact .pure fun known known' h => ⟨rfl, h.consistent, fun hfield => h.inStep (.inr hfield)⟩

/-- A field is resolved with nothing remembered of those after it. -/
theorem Concurs.at_position {position : Nat} {step step' : Resolving TypeRef}
    (hstep : Concurs (Before start start' (position :: address) (position :: address')) step step'
      (Same fun _ => Concluded start start' .field))
    (hclear : ∀ known, ClearFrom address (position + 1) known →
      ClearFrom address (position + 1) (step.outcome known).2)
    (hclear' : ∀ known, ClearFrom address' (position + 1) known →
      ClearFrom address' (position + 1) (step'.outcome known).2) :
    Concurs (BeforeFields start start' address address' position) step step'
      (Same fun _ => BeforeFields start start' address address' (position + 1)) := by
  refine (hstep.frame _ _ hclear hclear').imp ?_ ?_
  · rintro known known' ⟨hstep, hknown, hknown'⟩
    exact ⟨⟨hstep, hknown.here, hknown'.here⟩, hknown.succ, hknown'.succ⟩
  · rintro ref _ known known' ⟨⟨rfl, hconcluded⟩, hknown, hknown'⟩
    exact ⟨rfl, hconcluded.inStep rfl, hknown, hknown'⟩

mutual

theorem concurs_convert (depth : Depth) (fixed : Bool) (made : Option TypeRef) (node : TypeNode)
    (owner : Owner) (address address' : Address) :
    Concurs (Underway start start' owner address address' made)
      (convert settings owner address depth fixed made node)
      (convert settings owner address' depth fixed made node)
      (Same fun result => Underway start start' owner address address' result.2) := by
  have hpure : ∀ (ref : TypeRef) (made : Option TypeRef),
      Concurs (Underway start start' owner address address' made) (pure (ref, made))
        (pure (ref, made))
        (Same fun result => Underway start start' owner address address' result.2) :=
    fun ref made => .pure fun _ _ hunder => ⟨rfl, hunder⟩
  cases node with
  | primitive name path =>
      rw [convert, convert]
      split
      next => exact .throw
      next => exact hpure _ _
  | array path element =>
      rw [convert, convert]
      refine (concurs_convert .inner fixed made element owner address address').bind_same ?_
      rintro ⟨element', made'⟩
      simp only
      split
      next => exact hpure _ _
      next => exact .ofExcept_bind fun _ _ => hpure _ _
  | map name path key value =>
      rw [convert, convert]
      split
      next => exact .throw
      next =>
        refine (concurs_convert .inner false made key owner address address').bind_same ?_
        rintro ⟨key', made'⟩
        refine (concurs_convert .inner false made' value owner address address').bind_same ?_
        rintro ⟨value', made''⟩
        exact .ofExcept_bind fun _ _ => hpure _ _
  | generic name path args =>
      rcases args with _ | ⟨arg, _ | ⟨other, rest⟩⟩
      · rw [convert, convert]
        · exact .throw
        · simp
        · simp
      · rw [convert, convert]
        split
        next => exact concurs_convert depth fixed made arg owner address address'
        next => exact .throw
      · rw [convert, convert]
        · exact .throw
        · simp
        · simp
  | bareFunction path result =>
      rw [convert, convert]
      exact .throw
  | function path args result =>
      rcases args with _ | ⟨arg, _ | ⟨other, rest⟩⟩
      · rw [convert, convert]
        · exact .throw
        · simp
        · simp
      · rw [convert, convert]
        refine (concurs_convert .inner false made arg owner address address').bind_same ?_
        rintro ⟨arg', made'⟩
        simp only
        split
        next => exact .ofExcept_bind fun _ _ => hpure _ _
        next => exact .ofExcept_bind fun _ _ => hpure _ _
        next => exact .throw
      · rw [convert, convert]
        · exact .throw
        · simp
        · simp
  | union name path members =>
      rw [convert, convert]
      split
      next =>
        refine concurs_enumFor.bind fun enum enum' => .pure ?_
        rintro known known' ⟨hname, hunder⟩
        rw [hname]
        exact ⟨rfl, hunder⟩
      next =>
        simp only
        split
        next => exact hpure _ _
        next => exact .throw
        next kind =>
          split
          next =>
            exact (concurs_convertNullable made members owner address address').bind_same
              fun _ => hpure _ _
          next =>
            split
            next =>
              exact (concurs_convertVariants _ made members owner address address').bind_same
                fun _ => hpure _ _
            next =>
              exact (concurs_convertVariants _ made members owner address address').bind_same
                fun _ => hpure _ _
            next => exact .throw
  | record path properties =>
      cases made with
      | some ref =>
          rw [convert, convert]
          exact hpure _ _
      | none =>
          rw [convert, convert]
          refine .ofExcept_bind fun plan hplan => ?_
          -- The fields start in step, as no record has become a class before this one.
          have hfields : Concurs (Underway start start' owner address address' none)
              (convertFields settings owner address plan.name.display 0 properties)
              (convertFields settings owner address' plan.name.display 0 properties)
              (Same fun _ => InStep start start') := by
            refine (concurs_convertFields plan.name.display 0 properties owner address
              address').imp ?_ fun _ _ _ _ h => h
            intro known known' hunder
            refine ⟨hunder.inStep (.inl rfl), ?_, ?_⟩
            · rintro _ ⟨p, -, rfl⟩
              exact hunder.clear rfl p
            · rintro _ ⟨p, -, rfl⟩
              exact hunder.clear' rfl p
          refine (concurs_classFor hplan hfields (growsTo_classFor hplan _ _ _ _)
            (growsTo_classFor hplan _ _ _ _)).bind fun _ _ => .pure ?_
          exact fun known known' hconcluded => ⟨rfl, hconcluded.underway⟩

theorem concurs_convertNullable (made : Option TypeRef) (members : List TypeNode) (owner : Owner)
    (address address' : Address) :
    Concurs (Underway start start' owner address address' made)
      (convertNullable settings owner address made members)
      (convertNullable settings owner address' made members)
      (Same fun result => Underway start start' owner address address' result.2) := by
  cases members with
  | nil =>
      rw [convertNullable, convertNullable]
      exact .pure fun _ _ hunder => ⟨rfl, hunder⟩
  | cons member rest =>
      rw [convertNullable, convertNullable]
      split
      next => exact concurs_convert .inner false made member owner address address'
      next => exact concurs_convertNullable made rest owner address address'

theorem concurs_convertVariants (fixed : Bool) (made : Option TypeRef) (members : List TypeNode)
    (owner : Owner) (address address' : Address) :
    Concurs (Underway start start' owner address address' made)
      (convertVariants settings owner address fixed made members)
      (convertVariants settings owner address' fixed made members)
      (Same fun result => Underway start start' owner address address' result.2) := by
  cases members with
  | nil =>
      rw [convertVariants, convertVariants]
      exact .pure fun _ _ hunder => ⟨rfl, hunder⟩
  | cons member rest =>
      rw [convertVariants, convertVariants]
      split
      next =>
        refine (concurs_convert .inner fixed made member owner address address').bind_same ?_
        rintro ⟨ref, made'⟩
        refine (concurs_convertVariants fixed made' rest owner address address').bind_same ?_
        rintro ⟨refs, made''⟩
        exact .pure fun _ _ hunder => ⟨rfl, hunder⟩
      next => exact concurs_convertVariants fixed made rest owner address address'

theorem concurs_convertFields (className : Text) (position : Nat)
    (properties : List (Slot TypeNode)) (owner : Owner) (address address' : Address) :
    Concurs (BeforeFields start start' address address' position)
      (convertFields settings owner address className position properties)
      (convertFields settings owner address' className position properties)
      (Same fun _ => InStep start start') := by
  cases properties with
  | nil =>
      rw [convertFields, convertFields]
      exact .pure fun _ _ hbefore => ⟨rfl, hbefore.inStep⟩
  | cons property rest =>
      obtain ⟨name, path, type, required, comment⟩ := property
      rw [convertFields, convertFields]
      have htype := concurs_resolveType_of
        (concurs_convert .outer false none type (owner.property path name className)
          (position :: address) (position :: address'))
      refine (htype.at_position (fun _ => resolveType_clearFrom)
        fun _ => resolveType_clearFrom).bind_same fun ref => ?_
      refine (concurs_convertFields className (position + 1) rest owner address
        address').bind_same fun fields => ?_
      exact .pure fun _ _ hstep => ⟨rfl, hstep⟩

end

theorem concurs_resolve (type : Option TypeNode) (owner : Owner) (address address' : Address) :
    Concurs (Before start start' address address') (resolve settings owner address type)
      (resolve settings owner address' type)
      (Same fun _ => Concluded start start' owner.kind) := by
  cases type with
  | none => exact .pure fun _ _ hbefore => ⟨rfl, hbefore.inStep.concluded _⟩
  | some type =>
      exact concurs_resolveType_of (concurs_convert .outer false none type owner address address')

/-- Whatever was resolved before, a type is resolved to the same reference, and a class that
is registered both times under a name new to both is the same class. -/
theorem resolve_independent {type : Option TypeNode} {known known' after after' : Knowledge}
    {ref ref' : TypeRef} (hclear : known.Clear address) (hclear' : known'.Clear address')
    (hrun : outcome (resolve settings owner address type) known = (.ok ref, after))
    (hrun' : outcome (resolve settings owner address' type) known' = (.ok ref', after')) :
    ref = ref' ∧ ∀ interface name new new',
      Catalogue.Registers known.catalogue after.catalogue interface name new →
      Catalogue.Registers known'.catalogue after'.catalogue interface name new' →
      new = new' := by
  have hbefore : Before known.catalogue known'.catalogue address address' known known' :=
    ⟨Catalogue.addedAlike_start _ _, hclear, hclear'⟩
  obtain ⟨hsame, hconcluded⟩ :=
    (concurs_resolve type owner address address').concurs hbefore hrun hrun'
  refine ⟨hsame, fun interface name new new' hnew hnew' => ?_⟩
  exact hconcluded.consistent interface name hnew.unknown hnew'.unknown new new' hnew.found
    hnew'.found

/-! ## A frame whose origin may be known -/

def originRecord : TypeNode :=
  .record "Page.frame.origin"
    [⟨"x", "Page.frame.origin.x", .primitive "int" "Page.frame.origin.x", true, .str []⟩]

def frameRecord : TypeNode :=
  .record "Page.frame" [⟨"origin", "Page.frame.origin", originRecord, true, .str []⟩]

def frameOwner : Owner := ⟨"Page.frame", .method, "frame", "Page", "Page"⟩

def originOwner : Owner := ⟨"Page.origin", .method, "origin", "Page", "Page"⟩

/-- What is known once an origin has been resolved. -/
def originKnown : Knowledge :=
  (outcome (resolve .defaults originOwner [1] (some originRecord)) .empty).2

/-- The class of an origin is new in one of the runs only, that of the frame in both. -/
theorem resolve_independent_frame :
    let first := outcome (resolve .defaults frameOwner [0] (some frameRecord)) .empty
    let second := outcome (resolve .defaults frameOwner [0] (some frameRecord)) originKnown
    ∃ ref new, first.1 = .ok ref ∧ second.1 = .ok ref ∧
      Catalogue.empty.Registers first.2.catalogue none (.str "Frame") new ∧
      originKnown.catalogue.Registers second.2.catalogue none (.str "Frame") new := by
  intro first second
  have hclear : originKnown.Clear [0] := by
    unfold Knowledge.Clear
    decide +kernel
  have hok : first.1.isOk = true ∧ second.1.isOk = true := by decide +kernel
  have hunknown : (originKnown.catalogue.class? none (.str "Frame")).isNone = true := by
    decide +kernel
  have hfound : (first.2.catalogue.class? none (.str "Frame")).isSome = true ∧
      (second.2.catalogue.class? none (.str "Frame")).isSome = true := by decide +kernel
  obtain ⟨ref, href⟩ := exists_of_isOk hok.1
  obtain ⟨ref', href'⟩ := exists_of_isOk hok.2
  obtain ⟨new, hnew⟩ := Option.isSome_iff_exists.mp hfound.1
  obtain ⟨new', hnew'⟩ := Option.isSome_iff_exists.mp hfound.2
  have hfirst : Catalogue.empty.Registers first.2.catalogue none (.str "Frame") new :=
    ⟨rfl, hnew⟩
  have hsecond : originKnown.catalogue.Registers second.2.catalogue none (.str "Frame") new' :=
    ⟨Option.isNone_iff_eq_none.mp hunknown, hnew'⟩
  have hempty : Knowledge.empty.Clear [0] := fun _ hentry => nomatch hentry
  have hrun : first = (.ok ref, first.2) := Prod.ext href rfl
  have hrun' : second = (.ok ref', second.2) := Prod.ext href' rfl
  obtain ⟨rfl, hclasses⟩ := resolve_independent hempty hclear hrun hrun'
  obtain rfl := hclasses none (.str "Frame") new new' hfirst hsecond
  exact ⟨ref, new, href, href', hfirst, hsecond⟩

end Resolving
end ApiBindings
