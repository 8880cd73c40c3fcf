import ApiBindings.Proofs.Resolution.Kept
import ApiBindings.Proofs.Schema.Diagnosis
/-!
# Resolving explains its failures

A name of a type is boxed and looked up as if it were a text.  With settings of
the types that they are documented with, it is one: what the description names
is named by texts, and so is what the settings put in place of it.  Then a step
of resolving that fails says why.

That the names are texts holds of everything that is known along a run, so it is
a property that resolving keeps.  The failures come from a second pass over the
same steps, which takes from the first one what a step before has left behind.
-/

namespace ApiBindings

def Json.IsSpelled (value : Json) : Prop :=
  ∃ text, value = .str text

/-- The tables of the settings have the types that they are documented with. -/
structure Settings.Documented (settings : Settings) : Prop where
  customTypeNames : ∃ entries, settings.customTypeNames = some (.obj entries) ∧
    ∀ entry ∈ entries, entry.2.IsSpelled
  overrides : ∃ table, settings.overrides = some (.table table) ∧
    ∀ entry ∈ table, entry.2.source.IsSpelled ∧ entry.2.target.IsSpelled ∧ entry.2.kind.IsSpelled
  customSignatures : ∃ entries, settings.customSignatures = some (.obj entries) ∧
    ∀ entry ∈ entries, ∃ texts, entry.2 = .arr texts ∧ ∀ text ∈ texts, text.IsSpelled
  allowedBaseInterfaces : ∃ names, settings.allowedBaseInterfaces = some (.arr names) ∧
    ∀ name ∈ names, name.IsSpelled
  autoCloseableInterfaces : ∃ names, settings.autoCloseableInterfaces = some (.arr names) ∧
    ∀ name ∈ names, name.IsSpelled

abbrev TypeRef.IsSpelled (ref : TypeRef) : Prop :=
  ref.name.IsSpelled

theorem Json.IsSpelled.isKey {value : Json} (hvalue : value.IsSpelled) : value.isKey = true := by
  rcases hvalue with ⟨text, heq⟩
  subst heq
  rfl

theorem Java.exists_containerOf (name : Text) (args : List Json)
    (hargs : ∀ arg ∈ args, arg.IsSpelled) :
    ∃ spelling, Java.containerOf name args = .ok spelling := by
  have hboxed : ∃ boxed, args.mapM Java.box = .ok boxed := by
    induction args with
    | nil => exact ⟨[], rfl⟩
    | cons arg rest ih =>
        rcases List.forall_mem_cons.mp hargs with ⟨⟨text, heq⟩, hrest⟩
        rcases ih hrest with ⟨boxed, hboxed⟩
        subst heq
        exact ⟨.str (Java.boxText text) :: boxed, by rw [List.mapM_cons, hboxed]; rfl⟩
  rcases hboxed with ⟨boxed, hboxed⟩
  rw [Java.containerOf, hboxed]
  exact ⟨_, rfl⟩

namespace Settings.Documented

theorem defaults : Settings.defaults.Documented where
  customTypeNames := ⟨_, rfl, by simp [Json.IsSpelled]⟩
  overrides := ⟨_, rfl, by simp⟩
  customSignatures := ⟨_, rfl, by simp [Json.IsSpelled]⟩
  allowedBaseInterfaces := ⟨_, rfl, by simp [Json.IsSpelled]⟩
  autoCloseableInterfaces := ⟨_, rfl, by simp [Json.IsSpelled]⟩

variable {settings : Settings}

theorem exists_className (hsettings : settings.Documented) (name : Text) :
    ∃ text, settings.className name = .ok (.str text) := by
  rcases hsettings.customTypeNames with ⟨entries, htable, hspelled⟩
  unfold className lookup
  rw [htable]
  cases hfound : Text.find? name entries with
  | none => exact ⟨Text.capitalizeFirst name, by simp [hfound, bind, Except.bind, pure, Except.pure]⟩
  | some given =>
      rcases hspelled _ (Json.mem_of_find? hfound) with ⟨text, heq⟩
      exact ⟨text, by simpa [hfound, bind, Except.bind, pure, Except.pure] using heq⟩

theorem exists_plan (hsettings : settings.Documented) (owner : Owner) :
    ∃ plan, ClassPlan.of settings owner = .ok plan := by
  rcases hsettings.exists_className owner.name with ⟨text, hname⟩
  unfold ClassPlan.of
  split
  next => exact ⟨_, by rw [hname]; rfl⟩
  next => exact ⟨_, rfl⟩

theorem isSpelled_plan (hsettings : settings.Documented) {owner : Owner} {plan : ClassPlan}
    (hplan : ClassPlan.of settings owner = .ok plan) : plan.name.IsSpelled := by
  rcases ClassPlan.of_ok hplan with ⟨-, -, hname⟩ | ⟨-, -, -, htext⟩
  · rcases hsettings.exists_className owner.name with ⟨text, htext⟩
    rw [htext] at hname
    exact ⟨text, (Except.ok.inj hname).symm⟩
  · exact htext

theorem exists_override? (hsettings : settings.Documented) (path : Text) :
    ∃ replaced?, settings.override? path = .ok replaced? ∧
      ∀ replaced ∈ replaced?, replaced.target.IsSpelled := by
  rcases hsettings.overrides with ⟨table, htable, hspelled⟩
  unfold override?
  rw [htable]
  constructor
  constructor
  · rfl
  · intro replaced hfound
    rcases List.lookup_eq_some_iff.mp hfound with ⟨newer, older, hsplit, -⟩
    exact (hspelled (path, replaced) (by simp [hsplit])).2.1

theorem diagnosed_replacement? (hsettings : settings.Documented) (path expression : Text) :
    Diagnosed (replacement? settings path expression) := by
  rcases hsettings.exists_override? path with ⟨replaced?, hfound, -⟩
  unfold replacement?
  rw [hfound]
  cases replaced? with
  | none => exact .ok _
  | some replaced =>
      show Diagnosed (if _ then _ else _)
      split
      next => exact .error (Cause.isDiagnosed_atPath _ _)
      next => exact .ok _

/-- However a type is derived, its name is a text. -/
theorem kept_spelled (hsettings : settings.Documented) :
    TypeRef.Kept settings TypeRef.IsSpelled where
  builtin spelling := ⟨spelling, rfl⟩
  enum name := ⟨name, rfl⟩
  union name _ := ⟨name, rfl⟩
  asNullable {ref} hkept := by
    cases ref
    exact hkept
  replaced {path _ ref} hreplaced := by
    rcases replacement?_some hreplaced with ⟨replaced, hfound, href⟩
    rcases hsettings.exists_override? path with ⟨replaced?, hsame, hspelled⟩
    have htarget : replaced.target.IsSpelled := by
      rw [hfound] at hsame
      exact hspelled replaced (Except.ok.inj hsame).symm
    subst href
    split <;> exact htarget
  plan hplan _ := hsettings.isSpelled_plan hplan

end Settings.Documented

namespace Resolving

variable {α β : Type} {known : Knowledge}

/-- From what is known, a step that fails says why. -/
def Explains (step : Resolving α) (known : Knowledge) : Prop :=
  Diagnosed (outcome step known).1

namespace Explains

theorem pure (a : α) : Explains (pure a) known :=
  .ok a

theorem throw (cause : Cause) (path : Text) :
    Explains (throw (cause.atPath path) : Resolving α) known :=
  .error (cause.isDiagnosed_atPath path)

theorem bind {first : Resolving α} {next : α → Resolving β} (hfirst : Explains first known)
    (hnext : ∀ a after, outcome first known = (.ok a, after) → Explains (next a) after) :
    Explains (first >>= next) known := by
  unfold Explains at hfirst ⊢
  rw [outcome_bind]
  cases hrun : outcome first known with
  | mk result after =>
      rw [hrun] at hfirst
      cases result with
      | error failure => exact .error (hfirst failure rfl)
      | ok a => exact hnext a after hrun

/-- A step is taken from what the step before has left behind. -/
theorem bind_meets {first : Resolving α} {next : α → Resolving β} {inv : Knowledge → Prop}
    {post : α → Knowledge → Prop} (hfirst : Explains first known)
    (hmeets : Meets first inv post known)
    (hnext : ∀ a after, inv after → post a after → Explains (next a) after) :
    Explains (first >>= next) known := by
  apply hfirst.bind
  intro a after hrun
  rcases hmeets.of_ok hrun with ⟨-, hinv, hpost⟩
  exact hnext a after hinv hpost

theorem get_bind {next : Knowledge → Resolving α} (hnext : Explains (next known) known) :
    Explains (get >>= next) known := by
  unfold Explains
  rw [outcome_get_bind]
  exact hnext

theorem ofExcept {result : Except Failure α} (hresult : Diagnosed result) :
    Explains (Resolving.ofExcept result) known := by
  unfold Explains
  rw [outcome_ofExcept]
  exact hresult

theorem ofExcept_bind {result : Except Failure α} {next : α → Resolving β}
    (hresult : Diagnosed result) (hnext : ∀ a, result = .ok a → Explains (next a) known) :
    Explains (Resolving.ofExcept result >>= next) known := by
  unfold Explains
  rw [outcome_bind, outcome_ofExcept]
  cases hrun : result with
  | error failure => exact .error (hresult failure hrun)
  | ok a => exact hnext a hrun

/-- A spelling that can be made is made without a failure. -/
theorem spelling_bind {spelled : Except Failure Text} {next : Text → Resolving β}
    (hspelled : ∃ spelling, spelled = .ok spelling)
    (hnext : ∀ spelling, Explains (next spelling) known) :
    Explains (Resolving.ofExcept spelled >>= next) known := by
  rcases hspelled with ⟨spelling, heq⟩
  subst heq
  exact ofExcept_bind (.ok spelling) fun spelling _ => hnext spelling

theorem openOwner_bind {owner : Option Text} {next : Unit → Resolving β}
    (hnext : ∀ after : Knowledge,
      after = { known with catalogue := known.catalogue.openOwner (owner.getD []) } →
        Explains (next ()) after) :
    Explains (Resolving.openOwner owner >>= next) known := by
  unfold Explains
  rw [outcome_bind, outcome_openOwner]
  exact hnext _ rfl

theorem onCatalogue {step : Catalogue → Except Failure (α × Catalogue)}
    (hstep : Diagnosed (step known.catalogue)) : Explains (Resolving.onCatalogue step) known := by
  unfold Explains
  rw [outcome_onCatalogue]
  split
  next => exact .ok _
  next failure hfailure => exact .error (hstep failure hfailure)

end Explains

/-! ## Registering -/

theorem diagnosed_enumValues (enum path : Text) (done : List Text) (members : List TypeNode) :
    Diagnosed (Catalogue.enumValues enum path done members) := by
  induction members generalizing done with
  | nil => exact .ok _
  | cons member rest ih =>
      unfold Catalogue.enumValues
      dsimp only
      split
      next => exact .error (Cause.isDiagnosed_atPath _ _)
      next =>
        split
        next => exact .error (Cause.isDiagnosed_atPath _ _)
        next =>
          split
          next => exact .error (Cause.isDiagnosed_atPath _ _)
          next => exact ih _

theorem diagnosed_addEnum (catalogue : Catalogue) (new : EnumType) :
    Diagnosed (catalogue.addEnum new) := by
  unfold Catalogue.addEnum
  split
  next => exact .ok _
  next =>
    dsimp only
    split
    next =>
      split
      next => exact .ok _
      next => exact .error (Cause.isDiagnosed_atPath _ _)
    next => exact .error (Cause.isDiagnosed_atPath _ _)

theorem diagnosed_enumFor (catalogue : Catalogue) (name path : Text) (members : List TypeNode) :
    Diagnosed (catalogue.enumFor name path members) := by
  have hadded : Diagnosed (do
      let values ← Catalogue.enumValues name path [] members
      catalogue.addEnum { name, values, path }) :=
    (diagnosed_enumValues name path [] members).bind fun values _ => diagnosed_addEnum _ _
  unfold Catalogue.enumFor
  split
  next => exact .error (Cause.isDiagnosed_atPath _ _)
  next => exact hadded

theorem diagnosed_addClass (catalogue : Catalogue) {new : ClassType}
    (hname : new.name.IsSpelled) : Diagnosed (catalogue.addClass new) := by
  unfold Catalogue.addClass
  rw [hname.isKey]
  split
  next hkey => simp at hkey
  next =>
    split
    next =>
      dsimp only
      split
      next => exact .ok _
      next => exact .ok _
    next =>
      split
      next => exact .ok _
      next =>
        dsimp only
        split
        next =>
          split
          next => exact .ok _
          next => exact .error (Cause.isDiagnosed_atPath _ _)
        next => exact .error (Cause.isDiagnosed_atPath _ _)

theorem explains_registerClass {new : ClassType} (hname : new.name.IsSpelled) :
    Explains (registerClass new) known := by
  have hadd : ∀ before, Explains (onCatalogue (·.addClass new)) before := fun before =>
    .onCatalogue (diagnosed_addClass before.catalogue hname)
  unfold registerClass
  split
  next => exact Explains.openOwner_bind fun after _ => hadd after
  next => exact hadd known

/-! ## Deriving -/

theorem explains_classFor {name : Json} {path : Text} {scope : Scope} {owner : Option Text}
    {isReturnType : Bool} {fields : Resolving (List Field)} (hname : name.IsSpelled)
    (hknown : known.Keeps TypeRef.IsSpelled)
    (hfields : ∀ before : Knowledge, before.Keeps TypeRef.IsSpelled → Explains fields before) :
    Explains (classFor name path scope owner isReturnType fields) known := by
  have hnew : ∀ before : Knowledge, before.Keeps TypeRef.IsSpelled → Explains (do
      let fields ← fields
      registerClass
        { name, fields, scope, path, isReturnType
          owner := if scope = .ownerLocal then owner else none }) before := by
    intro before hbefore
    apply (hfields before hbefore).bind
    intro fields after _
    exact explains_registerClass hname
  unfold classFor
  cases scope with
  | global => exact hnew known hknown
  | ownerLocal =>
      dsimp only
      apply Explains.openOwner_bind
      intro after hafter
      have hopened : after.Keeps TypeRef.IsSpelled := hafter ▸ hknown.openOwner _
      simp only [hname.isKey, Bool.not_true, Bool.false_eq_true, if_false]
      apply Explains.get_bind
      rw [pure_bind]
      split
      next => exact .pure _
      next => exact hnew after hopened

variable {settings : Settings} {owner : Owner} {address : Address}

theorem explains_resolveOnce (hsettings : settings.Documented) {expression : Text}
    {derived : Resolving TypeRef} (hderived : Explains derived known) :
    Explains (resolveOnce settings owner address expression derived) known := by
  unfold resolveOnce
  apply Explains.get_bind
  split
  next => exact .pure _
  next =>
    apply Explains.ofExcept_bind (hsettings.diagnosed_replacement? _ _)
    intro replaced? _
    cases replaced? with
    | some ref => exact .ok _
    | none => exact hderived.bind fun ref after _ => .ok ref

theorem explains_resolveType_of (hsettings : settings.Documented) {type : TypeNode}
    (hconvert : Explains (convert settings owner address .outer false none type) known) :
    Explains (resolveType settings owner address type) known := by
  apply explains_resolveOnce hsettings
  apply hconvert.bind
  intro result after _
  exact .pure _

theorem meets_resolveType_spelled (hsettings : settings.Documented) (type : TypeNode)
    (hknown : known.Keeps TypeRef.IsSpelled) :
    Meets (resolveType settings owner address type) (Knowledge.Keeps TypeRef.IsSpelled)
      (fun ref _ => ref.IsSpelled) known := by
  let C := keptContract hsettings.kept_spelled
  exact C.meets_resolveType type trivial hknown

/-- A name that was derived is a text, and so is that of the class made on the way. -/
theorem Explains.bind_convert (hsettings : settings.Documented) {depth : Depth} {fixed : Bool}
    {madeClass : Option TypeRef} {node : TypeNode} {next : TypeRef × Option TypeRef → Resolving β}
    (hfirst : Explains (convert settings owner address depth fixed madeClass node) known)
    (hknown : known.Keeps TypeRef.IsSpelled) (hmade : ∀ ref ∈ madeClass, ref.IsSpelled)
    (hnext : ∀ ref madeClass after, Knowledge.Keeps TypeRef.IsSpelled after → ref.IsSpelled →
      (∀ made ∈ madeClass, TypeRef.IsSpelled made) → Explains (next (ref, madeClass)) after) :
    Explains (convert settings owner address depth fixed madeClass node >>= next) known := by
  let C := keptContract hsettings.kept_spelled
  have hmeets : Meets (convert settings owner address depth fixed madeClass node)
      (Knowledge.Keeps TypeRef.IsSpelled) (C.Derived address) known :=
    C.meets_convert depth fixed madeClass node trivial hknown hmade
  apply hfirst.bind_meets hmeets
  rintro ⟨ref, madeClass⟩ after hafter ⟨href, hmade⟩
  exact hnext ref madeClass after hafter href hmade

mutual

theorem explains_convert (hsettings : settings.Documented) (depth : Depth) (fixed : Bool)
    (madeClass : Option TypeRef) (node : TypeNode) {owner : Owner} {address : Address}
    {known : Knowledge} (hknown : known.Keeps TypeRef.IsSpelled)
    (hmade : ∀ ref ∈ madeClass, ref.IsSpelled) :
    Explains (convert settings owner address depth fixed madeClass node) known := by
  cases node with
  | primitive name path =>
      rw [convert]
      split
      next => exact .throw _ _
      next => exact .pure _
  | array path element =>
      rw [convert]
      apply (explains_convert hsettings .inner fixed madeClass element hknown hmade).bind_convert
        hsettings hknown hmade
      intro element' madeClass' after _ helement _
      dsimp only
      split
      next => exact .pure _
      next =>
        apply Explains.spelling_bind
          (Java.exists_containerOf "List" [element'.name] (by simpa using helement))
        exact fun spelling => .pure _
  | map name path key value =>
      rw [convert]
      split
      next => exact .throw _ _
      next =>
        apply (explains_convert hsettings .inner false madeClass key hknown hmade).bind_convert
          hsettings hknown hmade
        intro key' madeClass' after hafter hkey hmade'
        apply (explains_convert hsettings .inner false madeClass' value hafter hmade').bind_convert
          hsettings hafter hmade'
        intro value' madeClass'' last _ hvalue _
        apply Explains.spelling_bind
          (Java.exists_containerOf "Map" [key'.name, value'.name] (by simpa using ⟨hkey, hvalue⟩))
        exact fun spelling => .pure _
  | generic name path args =>
      rcases args with _ | ⟨arg, _ | ⟨other, rest⟩⟩
      · rw [convert]
        · exact .throw _ _
        · simp
      · rw [convert]
        split
        next => exact explains_convert hsettings depth fixed madeClass arg hknown hmade
        next => exact .throw _ _
      · rw [convert]
        · exact .throw _ _
        · simp
  | bareFunction path result =>
      rw [convert]
      exact .throw _ _
  | function path args result =>
      rcases args with _ | ⟨arg, _ | ⟨other, rest⟩⟩
      · rw [convert]
        · exact .throw _ _
        · simp
      · rw [convert]
        apply (explains_convert hsettings .inner false madeClass arg hknown hmade).bind_convert
          hsettings hknown hmade
        intro arg' madeClass' after _ harg _
        dsimp only
        split
        next =>
          apply Explains.spelling_bind
            (Java.exists_containerOf "Consumer" [arg'.name] (by simpa using harg))
          exact fun spelling => .pure _
        next =>
          apply Explains.spelling_bind
            (Java.exists_containerOf "Predicate" [arg'.name] (by simpa using harg))
          exact fun spelling => .pure _
        next => exact .throw _ _
      · rw [convert]
        · exact .throw _ _
        · simp
  | union name path members =>
      rw [convert]
      split
      next =>
        apply (Explains.onCatalogue (diagnosed_enumFor _ name path members)).bind
        intro enum after _
        exact .pure _
      next =>
        dsimp only
        split
        next => exact .pure _
        next => exact .throw _ _
        next =>
          split
          next =>
            apply (explains_convertNullable hsettings madeClass members hknown hmade).bind
            intro result after _
            exact .pure _
          next =>
            split
            next =>
              apply (explains_convertVariants hsettings _ madeClass members hknown hmade).bind
              intro result after _
              exact .pure _
            next =>
              apply (explains_convertVariants hsettings _ madeClass members hknown hmade).bind
              intro result after _
              exact .pure _
            next => exact .throw _ _
  | record path properties =>
      cases madeClass with
      | some ref =>
          rw [convert]
          exact .pure _
      | none =>
          rw [convert]
          rcases hsettings.exists_plan owner with ⟨plan, hplan⟩
          apply Explains.ofExcept_bind (hplan ▸ .ok plan)
          intro plan hplan
          apply Explains.bind
          · exact explains_classFor (hsettings.isSpelled_plan hplan) hknown fun before hbefore =>
              explains_convertFields hsettings plan.name.display 0 properties hbefore
          · intro type after _
            exact .pure _

theorem explains_convertNullable (hsettings : settings.Documented) (madeClass : Option TypeRef)
    (members : List TypeNode) {owner : Owner} {address : Address} {known : Knowledge}
    (hknown : known.Keeps TypeRef.IsSpelled) (hmade : ∀ ref ∈ madeClass, ref.IsSpelled) :
    Explains (convertNullable settings owner address madeClass members) known := by
  cases members with
  | nil =>
      rw [convertNullable]
      exact .pure _
  | cons member rest =>
      rw [convertNullable]
      split
      next => exact explains_convert hsettings .inner false madeClass member hknown hmade
      next => exact explains_convertNullable hsettings madeClass rest hknown hmade

theorem explains_convertVariants (hsettings : settings.Documented) (fixed : Bool)
    (madeClass : Option TypeRef) (members : List TypeNode) {owner : Owner} {address : Address}
    {known : Knowledge} (hknown : known.Keeps TypeRef.IsSpelled)
    (hmade : ∀ ref ∈ madeClass, ref.IsSpelled) :
    Explains (convertVariants settings owner address fixed madeClass members) known := by
  cases members with
  | nil =>
      rw [convertVariants]
      exact .pure _
  | cons member rest =>
      rw [convertVariants]
      split
      next =>
        apply (explains_convert hsettings .inner fixed madeClass member hknown hmade).bind_convert
          hsettings hknown hmade
        intro ref madeClass' after hafter _ hmade'
        apply (explains_convertVariants hsettings fixed madeClass' rest hafter hmade').bind
        intro result last _
        exact .pure _
      next => exact explains_convertVariants hsettings fixed madeClass rest hknown hmade

theorem explains_convertFields (hsettings : settings.Documented) (className : Text)
    (position : Nat) (properties : List (Slot TypeNode)) {owner : Owner} {address : Address}
    {known : Knowledge} (hknown : known.Keeps TypeRef.IsSpelled) :
    Explains (convertFields settings owner address className position properties) known := by
  cases properties with
  | nil =>
      rw [convertFields]
      exact .pure _
  | cons property rest =>
      rcases property with ⟨name, path, type, required, comment⟩
      rw [convertFields]
      apply Explains.bind_meets (explains_resolveType_of hsettings ?_)
        (meets_resolveType_spelled hsettings type hknown)
      · intro ref after hafter _
        apply (explains_convertFields hsettings className (position + 1) rest hafter).bind
        intro fields last _
        exact .pure _
      · exact explains_convert hsettings .outer false none type hknown (by simp)

end

theorem explains_resolveType (hsettings : settings.Documented) (type : TypeNode)
    (hknown : known.Keeps TypeRef.IsSpelled) :
    Explains (resolveType settings owner address type) known :=
  explains_resolveType_of hsettings
    (explains_convert hsettings .outer false none type hknown (by simp))

theorem meets_resolve_spelled (hsettings : settings.Documented) (type : Option TypeNode)
    (hknown : known.Keeps TypeRef.IsSpelled) :
    Meets (resolve settings owner address type) (Knowledge.Keeps TypeRef.IsSpelled)
      (fun ref _ => ref.IsSpelled) known := by
  let C := keptContract hsettings.kept_spelled
  exact C.meets_resolve type trivial hknown

theorem explains_resolve (hsettings : settings.Documented) (type : Option TypeNode)
    (hknown : known.Keeps TypeRef.IsSpelled) :
    Explains (resolve settings owner address type) known := by
  cases type with
  | none => exact .pure _
  | some type => exact explains_resolveType hsettings type hknown

end Resolving
end ApiBindings
