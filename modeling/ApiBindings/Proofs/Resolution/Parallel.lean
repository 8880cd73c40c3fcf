import ApiBindings.Proofs.Resolution.Footprint
/-!
# Runs in parallel

Two runs may resolve the same types at addresses that differ, under settings that
differ in what no type depends on.  They go the same way, failures included, as long
as they know the same types and each remembers at its addresses what the other one
remembers at the corresponding ones.  Nothing is asked of what they remember
elsewhere.
-/

namespace ApiBindings

/-- Settings under which types resolve alike: they name the same classes and replace
the same types. -/
structure Settings.ResolveAlike (settings settings' : Settings) : Prop where
  className : ∀ name, settings'.className name = settings.className name
  override? : ∀ path, settings'.override? path = settings.override? path

namespace Resolving

/-- Two runs end alike: with the same result, what is known then being related, or
with the same failure. -/
inductive Alike {α : Type} (post : Knowledge → Knowledge → Prop) :
    Except Failure α × Knowledge → Except Failure α × Knowledge → Prop
  | ok (a : α) {known known' : Knowledge} (hpost : post known known') :
      Alike post (.ok a, known) (.ok a, known')
  | error (failure : Failure) {known known' : Knowledge} :
      Alike post (.error failure, known) (.error failure, known')

theorem Alike.exists_ok {α : Type} {post : Knowledge → Knowledge → Prop} {a : α}
    {after : Knowledge} {ended : Except Failure α × Knowledge}
    (halike : Alike post (.ok a, after) ended) :
    ∃ after', ended = (.ok a, after') ∧ post after after' := by
  cases halike with
  | ok _ hpost => exact ⟨_, rfl, hpost⟩

theorem Alike.result {α : Type} {post : Knowledge → Knowledge → Prop}
    {ended ended' : Except Failure α × Knowledge} (halike : Alike post ended ended') :
    ended.1 = ended'.1 := by
  cases halike with
  | ok => rfl
  | error => rfl

/-- From related knowledge two steps end alike. -/
def Parallel {α : Type} (pre : Knowledge → Knowledge → Prop) (step step' : Resolving α)
    (post : Knowledge → Knowledge → Prop) : Prop :=
  ∀ known known', pre known known' → Alike post (step.outcome known) (step'.outcome known')

section

variable {α β : Type} {pre mid post : Knowledge → Knowledge → Prop} {first first' : Resolving α}
  {next next' : α → Resolving β}

theorem Parallel.pure {a : α} (hpost : ∀ known known', pre known known' → post known known') :
    Parallel pre (pure a) (pure a) post :=
  fun known known' hpre => .ok a (hpost known known' hpre)

theorem Parallel.throw {failure : Failure} :
    Parallel (α := α) pre (throw failure) (throw failure) post :=
  fun _ _ _ => .error failure

theorem Parallel.bind (hfirst : Parallel pre first first' mid)
    (hnext : ∀ a, Parallel mid (next a) (next' a) post) :
    Parallel pre (first >>= next) (first' >>= next') post := by
  intro known known' hpre
  have halike := hfirst known known' hpre
  rw [outcome_bind, outcome_bind]
  generalize first.outcome known = ended at halike ⊢
  generalize first'.outcome known' = ended' at halike ⊢
  cases halike with
  | ok a hmid => exact hnext a _ _ hmid
  | error failure => exact .error failure

theorem Parallel.ofExcept {result : Except Failure α} :
    Parallel pre (Resolving.ofExcept result) (Resolving.ofExcept result) pre := by
  cases result with
  | error failure => exact .throw
  | ok a => exact .pure fun _ _ hpre => hpre

theorem Parallel.ofExcept_bind {result : Except Failure α}
    (hnext : ∀ a, result = .ok a → Parallel pre (next a) (next' a) post) :
    Parallel pre (Resolving.ofExcept result >>= next) (Resolving.ofExcept result >>= next')
      post := by
  cases result with
  | error failure => exact .throw
  | ok a => exact hnext a rfl

theorem Parallel.get_bind {next next' : Knowledge → Resolving β}
    (hnext : ∀ known known', pre known known' → Parallel pre (next known) (next' known') post) :
    Parallel pre (get >>= next) (get >>= next') post := by
  intro known known' hpre
  rw [outcome_get_bind, outcome_get_bind]
  exact hnext known known' hpre known known' hpre

theorem Parallel.imp {pre' post' : Knowledge → Knowledge → Prop}
    (hstep : Parallel pre first first' post)
    (hpre : ∀ known known', pre' known known' → pre known known')
    (hpost : ∀ known known', post known known' → post' known known') :
    Parallel pre' first first' post' := by
  intro known known' hpre'
  have halike := hstep known known' (hpre _ _ hpre')
  generalize first.outcome known = ended at halike ⊢
  generalize first'.outcome known' = ended' at halike ⊢
  cases halike with
  | ok a hpost' => exact .ok a (hpost _ _ hpost')
  | error failure => exact .error failure

/-- What either step keeps is still there after both. -/
theorem Parallel.frame (keep keep' : Knowledge → Prop)
    (hstep : Parallel pre first first' post)
    (hkeep : ∀ known, keep known → keep (first.outcome known).2)
    (hkeep' : ∀ known, keep' known → keep' (first'.outcome known).2) :
    Parallel (fun known known' => pre known known' ∧ keep known ∧ keep' known') first first'
      (fun known known' => post known known' ∧ keep known ∧ keep' known') := by
  rintro known known' ⟨hpre, hknown, hknown'⟩
  have halike := hstep known known' hpre
  have hafter := hkeep known hknown
  have hafter' := hkeep' known' hknown'
  generalize first.outcome known = ended at halike hafter ⊢
  generalize first'.outcome known' = ended' at halike hafter' ⊢
  cases halike with
  | ok a hpost => exact .ok a ⟨hpost, hafter, hafter'⟩
  | error failure => exact .error failure

end

/-! ## Twins -/

/-- Two runs know the same types, and remember the same below an address of each. -/
structure Twins (base base' : Address) (known known' : Knowledge) : Prop where
  catalogue : known'.catalogue = known.catalogue
  resolved : ∀ below : Address,
    known'.resolved.lookup (below ++ base') = known.resolved.lookup (below ++ base)

section

variable {base base' : Address}

theorem Twins.of_clear {known known' : Knowledge}
    (hcatalogue : known'.catalogue = known.catalogue) (hclear : known.Clear base)
    (hclear' : known'.Clear base') : Twins base base' known known' where
  catalogue := hcatalogue
  resolved below := by rw [(hclear.under below).lookup, (hclear'.under below).lookup]

theorem Twins.withCatalogue {known known' : Knowledge} (htwins : Twins base base' known known')
    (catalogue : Catalogue) :
    Twins base base' { known with catalogue } { known' with catalogue } :=
  ⟨rfl, htwins.resolved⟩

theorem Twins.remember {known known' : Knowledge} (htwins : Twins base base' known known')
    (below : Address) (ref : TypeRef) :
    Twins base base'
      { known with resolved := (below ++ base, ref) :: known.resolved }
      { known' with resolved := (below ++ base', ref) :: known'.resolved } where
  catalogue := htwins.catalogue
  resolved other := by
    have hsame : (other ++ base' == below ++ base') = (other ++ base == below ++ base) := by
      simp only [beq_eq_decide, List.append_left_inj]
    rw [List.lookup_cons, List.lookup_cons, hsame, htwins.resolved other]

variable {settings settings' : Settings} {owner : Owner}

theorem parallel_openOwner (name : Option Text) :
    Parallel (Twins base base') (openOwner name) (openOwner name) (Twins base base') := by
  intro known known' htwins
  rw [outcome_openOwner, outcome_openOwner, htwins.catalogue]
  exact .ok () (htwins.withCatalogue _)

theorem parallel_onCatalogue {α : Type} (step : Catalogue → Except Failure (α × Catalogue)) :
    Parallel (Twins base base') (onCatalogue step) (onCatalogue step) (Twins base base') := by
  intro known known' htwins
  rw [outcome_onCatalogue, outcome_onCatalogue, htwins.catalogue]
  cases step known.catalogue with
  | error failure => exact .error failure
  | ok result => exact .ok result.1 (htwins.withCatalogue result.2)

theorem parallel_registerClass (new : ClassType) :
    Parallel (Twins base base') (registerClass new) (registerClass new) (Twins base base') := by
  unfold registerClass
  split
  next => exact (parallel_openOwner _).bind fun _ => parallel_onCatalogue _
  next => exact parallel_onCatalogue _

theorem parallel_classFor {name : Json} {path : Text} {scope : Scope} {interface : Option Text}
    {isReturnType : Bool} {fields fields' : Resolving (List Field)}
    (hfields : Parallel (Twins base base') fields fields' (Twins base base')) :
    Parallel (Twins base base') (classFor name path scope interface isReturnType fields)
      (classFor name path scope interface isReturnType fields') (Twins base base') := by
  have hnew : ∀ new : List Field → ClassType,
      Parallel (Twins base base') (fields >>= fun fields => registerClass (new fields))
        (fields' >>= fun fields => registerClass (new fields)) (Twins base base') :=
    fun new => hfields.bind fun _ => parallel_registerClass _
  unfold classFor
  cases scope with
  | global => exact hnew _
  | ownerLocal =>
      simp only
      refine (parallel_openOwner _).bind fun _ => ?_
      split
      next => exact .throw
      next =>
        simp only [pure_bind]
        refine .get_bind fun known known' htwins => ?_
        rw [htwins.catalogue]
        split
        next => exact .pure fun _ _ h => h
        next => exact hnew _

theorem replacement?_alike (halike : settings.ResolveAlike settings') (path expression : Text) :
    replacement? settings' path expression = replacement? settings path expression := by
  unfold replacement?
  rw [halike.override?]

theorem parallel_resolveOnce (halike : settings.ResolveAlike settings') (below : Address)
    {expression : Text} {derived derived' : Resolving TypeRef}
    (hderived : Parallel (Twins base base') derived derived' (Twins base base')) :
    Parallel (Twins base base') (resolveOnce settings owner (below ++ base) expression derived)
      (resolveOnce settings' owner (below ++ base') expression derived')
      (Twins base base') := by
  have hremember : ∀ ref : TypeRef, Parallel (Twins base base')
      (do
        modify fun known : Knowledge =>
          { known with resolved := (below ++ base, ref) :: known.resolved }
        pure ref)
      (do
        modify fun known : Knowledge =>
          { known with resolved := (below ++ base', ref) :: known.resolved }
        pure ref)
      (Twins base base') :=
    fun ref known known' htwins => .ok ref (htwins.remember below ref)
  unfold resolveOnce
  refine .get_bind fun known known' htwins => ?_
  rw [htwins.resolved below, replacement?_alike halike]
  split
  next => exact .pure fun _ _ h => h
  next =>
    refine .ofExcept_bind fun replaced _ => ?_
    cases replaced with
    | some ref => exact hremember ref
    | none => exact hderived.bind hremember

theorem classPlan_alike (halike : settings.ResolveAlike settings') (owner : Owner) :
    ClassPlan.of settings' owner = ClassPlan.of settings owner := by
  unfold ClassPlan.of
  rw [halike.className]

/-! ## The induction -/

mutual

theorem parallel_convert (halike : settings.ResolveAlike settings') (below : Address)
    (depth : Depth) (fixed : Bool) (made : Option TypeRef) (node : TypeNode) (owner : Owner) :
    Parallel (Twins base base')
      (convert settings owner (below ++ base) depth fixed made node)
      (convert settings' owner (below ++ base') depth fixed made node)
      (Twins base base') := by
  have hpure : ∀ result : TypeRef × Option TypeRef,
      Parallel (Twins base base') (pure result) (pure result) (Twins base base') :=
    fun _ => .pure fun _ _ h => h
  cases node with
  | primitive name path =>
      rw [convert, convert]
      split
      next => exact .throw
      next => exact hpure _
  | array path element =>
      rw [convert, convert]
      refine (parallel_convert halike below .inner fixed made element owner).bind ?_
      rintro ⟨element', made'⟩
      simp only
      split
      next => exact hpure _
      next => exact .ofExcept_bind fun _ _ => hpure _
  | map name path key value =>
      rw [convert, convert]
      split
      next => exact .throw
      next =>
        refine (parallel_convert halike below .inner false made key owner).bind ?_
        rintro ⟨key', made'⟩
        refine (parallel_convert halike below .inner false made' value owner).bind ?_
        rintro ⟨value', made''⟩
        exact .ofExcept_bind fun _ _ => hpure _
  | generic name path args =>
      rcases args with _ | ⟨arg, _ | ⟨other, rest⟩⟩
      · rw [convert, convert]
        · exact .throw
        · simp
        · simp
      · rw [convert, convert]
        split
        next => exact parallel_convert halike below depth fixed made arg owner
        next => exact .throw
      · rw [convert, convert]
        · exact .throw
        · simp
        · simp
  | bareFunction path result =>
      rw [convert, convert]
      exact .throw
  | function path args result =>
      rcases args with _ | ⟨arg, _ | ⟨other, rest⟩⟩
      · rw [convert, convert]
        · exact .throw
        · simp
        · simp
      · rw [convert, convert]
        refine (parallel_convert halike below .inner false made arg owner).bind ?_
        rintro ⟨arg', made'⟩
        simp only
        split
        next => exact .ofExcept_bind fun _ _ => hpure _
        next => exact .ofExcept_bind fun _ _ => hpure _
        next => exact .throw
      · rw [convert, convert]
        · exact .throw
        · simp
        · simp
  | union name path members =>
      rw [convert, convert]
      split
      next => exact (parallel_onCatalogue _).bind fun _ => hpure _
      next =>
        simp only
        split
        next => exact hpure _
        next => exact .throw
        next kind =>
          split
          next =>
            exact (parallel_convertNullable halike below made members owner).bind
              fun _ => hpure _
          next =>
            split
            next =>
              exact (parallel_convertVariants halike below _ made members owner).bind
                fun _ => hpure _
            next =>
              exact (parallel_convertVariants halike below _ made members owner).bind
                fun _ => hpure _
            next => exact .throw
  | record path properties =>
      cases made with
      | some ref =>
          rw [convert, convert]
          exact hpure _
      | none =>
          rw [convert, convert, classPlan_alike halike]
          refine .ofExcept_bind fun plan _ => ?_
          exact (parallel_classFor (parallel_convertFields halike below plan.name.display 0
            properties owner)).bind fun _ => hpure _

theorem parallel_convertNullable (halike : settings.ResolveAlike settings') (below : Address)
    (made : Option TypeRef) (members : List TypeNode) (owner : Owner) :
    Parallel (Twins base base')
      (convertNullable settings owner (below ++ base) made members)
      (convertNullable settings' owner (below ++ base') made members)
      (Twins base base') := by
  cases members with
  | nil =>
      rw [convertNullable, convertNullable]
      exact .pure fun _ _ h => h
  | cons member rest =>
      rw [convertNullable, convertNullable]
      split
      next => exact parallel_convert halike below .inner false made member owner
      next => exact parallel_convertNullable halike below made rest owner

theorem parallel_convertVariants (halike : settings.ResolveAlike settings') (below : Address)
    (fixed : Bool) (made : Option TypeRef) (members : List TypeNode) (owner : Owner) :
    Parallel (Twins base base')
      (convertVariants settings owner (below ++ base) fixed made members)
      (convertVariants settings' owner (below ++ base') fixed made members)
      (Twins base base') := by
  cases members with
  | nil =>
      rw [convertVariants, convertVariants]
      exact .pure fun _ _ h => h
  | cons member rest =>
      rw [convertVariants, convertVariants]
      split
      next =>
        refine (parallel_convert halike below .inner fixed made member owner).bind ?_
        rintro ⟨ref, made'⟩
        exact (parallel_convertVariants halike below fixed made' rest owner).bind
          fun _ => .pure fun _ _ h => h
      next => exact parallel_convertVariants halike below fixed made rest owner

theorem parallel_convertFields (halike : settings.ResolveAlike settings') (below : Address)
    (className : Text) (position : Nat) (properties : List (Slot TypeNode)) (owner : Owner) :
    Parallel (Twins base base')
      (convertFields settings owner (below ++ base) className position properties)
      (convertFields settings' owner (below ++ base') className position properties)
      (Twins base base') := by
  cases properties with
  | nil =>
      rw [convertFields, convertFields]
      exact .pure fun _ _ h => h
  | cons property rest =>
      obtain ⟨name, path, type, required, comment⟩ := property
      rw [convertFields, convertFields]
      -- A property of a record stands at an address below that of the record.
      refine (parallel_resolveOnce halike (position :: below)
        ((parallel_convert halike (position :: below) .outer false none type _).bind
          fun _ => .pure fun _ _ h => h)).bind fun ref => ?_
      exact (parallel_convertFields halike below className (position + 1) rest owner).bind
        fun _ => .pure fun _ _ h => h

end

theorem parallel_resolveType (halike : settings.ResolveAlike settings') (below : Address)
    (type : TypeNode) (owner : Owner) :
    Parallel (Twins base base') (resolveType settings owner (below ++ base) type)
      (resolveType settings' owner (below ++ base') type) (Twins base base') :=
  parallel_resolveOnce halike below
    ((parallel_convert halike below .outer false none type owner).bind
      fun _ => .pure fun _ _ h => h)

theorem parallel_resolve (halike : settings.ResolveAlike settings') (below : Address)
    (type : Option TypeNode) (owner : Owner) :
    Parallel (Twins base base') (resolve settings owner (below ++ base) type)
      (resolve settings' owner (below ++ base') type) (Twins base base') := by
  cases type with
  | none => exact .pure fun _ _ h => h
  | some type => exact parallel_resolveType halike below type owner

end
end Resolving
end ApiBindings
