import ApiBindings.Proofs.Resolution.Simulation
/-!
# Resolving is mirrored

Of two runs that resolve one type for one owner, at addresses where neither of
them remembers anything, the second one succeeds if the first one does, and with
the same reference.  The induction is over the type tree, as for contracts; what
it carries besides the mirror is that no property is looked up before the record
around it has become a class.
-/

namespace ApiBindings
namespace Resolving

section
variable {settings : Settings} {full : Catalogue}

/-- A run and its mirror can go on converting a type, each at its own address:
until a record has become a class, nothing is remembered of its properties. -/
structure Ready (settings : Settings) (full : Catalogue) (owner : Owner)
    (address address' : Address) (made : Option TypeRef)
    (known known' : Knowledge) : Prop where
  mirrors : Mirrors settings full owner.interface known known'
  clear : made = none → ∀ position, known.Clear (position :: address)
  clear' : made = none → ∀ position, known'.Clear (position :: address')
  made : ∀ ref ∈ made, settings.Names owner.name ref.name

/-- Fields typed for their names, in a run and its mirror. -/
def Fielded (settings : Settings) (full : Catalogue) (owner : Owner) (fields : List Field)
    (known known' : Knowledge) : Prop :=
  Mirrors settings full owner.interface known known' ∧
    ∀ field ∈ fields, ∃ ref, field.type = some ref ∧ settings.Types field.name ref

/-- A plan for a class is carried out in a run and its mirror. -/
def Registered (settings : Settings) (full : Catalogue) (owner : Owner) (plan : ClassPlan)
    (known known' : Knowledge) : Prop :=
  Mirrors settings full owner.interface known known' ∧ settings.Names owner.name plan.name

variable {owner : Owner} {address address' : Address} {made : Option TypeRef}

theorem follows_enumFor {name path : Text} {members : List TypeNode} :
    Follows full (Ready settings full owner address address' made)
      (onCatalogue (·.enumFor name path members)) (onCatalogue (·.enumFor name path members))
      (fun enum enum' known known' => enum'.name = enum.name ∧
        Ready settings full owner address address' made known known') := by
  refine follows_onCatalogue Catalogue.enumFor_growsTo ?_
  intro known known' enum after hready hadd hfull
  obtain ⟨enum', after', hadd', hname, hmirrors⟩ := hready.mirrors.enumFor hadd hfull
  exact ⟨enum', after', hadd', hname, hmirrors, hready.clear, hready.clear', hready.made⟩

theorem follows_openOwner {pre : Knowledge → Knowledge → Prop}
    {post : Unit → Unit → Knowledge → Knowledge → Prop} (name : Option Text)
    (hpost : ∀ known known', pre known known' → post () ()
      { known with catalogue := known.catalogue.openOwner (name.getD []) }
      { known' with catalogue := known'.catalogue.openOwner (name.getD []) }) :
    Follows full pre (Resolving.openOwner name) (Resolving.openOwner name) post where
  grows known := ⟨Catalogue.growsTo_openOwner _ _, List.suffix_rfl⟩
  follows hpre hrun _ := by
    rw [outcome_openOwner] at hrun
    obtain rfl := (Prod.ext_iff.mp hrun).2
    exact ⟨(), _, rfl, hpost _ _ hpre⟩

theorem names_of_plan {plan : ClassPlan} (hplan : ClassPlan.of settings owner = .ok plan)
    (hkey : plan.name.isKey = true) : settings.Names owner.name plan.name := by
  obtain ⟨-, -, hname⟩ | ⟨-, -, -, htext⟩ := ClassPlan.of_ok hplan
  · exact ⟨hkey, .inr hname⟩
  · exact ⟨hkey, .inl htext⟩

theorem follows_registerClass (hproper : full.ProperClasses) {plan : ClassPlan}
    {path : Text} {fields : List Field} (hplan : ClassPlan.of settings owner = .ok plan) :
    Follows full (Fielded settings full owner fields)
      (registerClass (plan.classType path fields))
      (registerClass (plan.classType path fields))
      (fun _ _ => Registered settings full owner plan) := by
  have howner : (plan.classType path fields).scope = .ownerLocal →
      (plan.classType path fields).owner = some owner.interface := by
    intro hlocal
    obtain ⟨hscope, -, -⟩ | ⟨hscope, howner, -, -⟩ := ClassPlan.of_ok hplan
    · exact absurd (hscope.symm.trans hlocal) (by simp)
    · simp [ClassPlan.classType, hscope, howner]
  have hadd : Follows full (Fielded settings full owner fields)
      (onCatalogue (·.addClass (plan.classType path fields)))
      (onCatalogue (·.addClass (plan.classType path fields)))
      (fun _ _ => Registered settings full owner plan) := by
    refine follows_onCatalogue Catalogue.addClass_growsTo ?_
    rintro known known' type after ⟨hmirrors, hfields⟩ hadd hfull
    have hkey : plan.name.isKey = true := (Catalogue.addClass_ok hadd).1
    obtain ⟨type', after', hadd', hmirrors⟩ :=
      hmirrors.addClass hproper ⟨hkey, hfields⟩ howner hadd hfull
    exact ⟨type', after', hadd', hmirrors, names_of_plan hplan hkey⟩
  unfold registerClass
  split
  next =>
    refine Follows.bind (M := fun _ _ => Fielded settings full owner fields) ?_ ?_
    · exact follows_openOwner _ fun known known' h => ⟨h.1.openOwner _, h.2⟩
    · exact fun _ _ => hadd
  next => exact hadd

/-- A class is found in both runs or made in both. -/
theorem follows_classFor (hproper : full.ProperClasses) {plan : ClassPlan} {path : Text}
    {fields fields' : Resolving (List Field)}
    (hplan : ClassPlan.of settings owner = .ok plan)
    (hfields : Follows full (Ready settings full owner address address' none) fields fields'
      (Same (Fielded settings full owner))) :
    Follows full (Ready settings full owner address address' none)
      (classFor plan.name path plan.scope plan.owner plan.isReturnType fields)
      (classFor plan.name path plan.scope plan.owner plan.isReturnType fields')
      (fun _ _ => Registered settings full owner plan) := by
  have hnew : Follows full (Ready settings full owner address address' none)
      (do
        let fields ← fields
        registerClass (plan.classType path fields))
      (do
        let fields ← fields'
        registerClass (plan.classType path fields))
      (fun _ _ => Registered settings full owner plan) :=
    hfields.bind_same fun _ => follows_registerClass hproper hplan
  unfold classFor
  obtain ⟨hscope, -, -⟩ | ⟨hscope, howner, -, text, htext⟩ := ClassPlan.of_ok hplan
  · simp only [ClassPlan.classType, hscope] at hnew ⊢
    exact hnew
  · have hkey : plan.name.isKey = true := htext ▸ rfl
    simp only [ClassPlan.classType, hscope, howner, if_true] at hnew ⊢
    refine Follows.bind
      (M := fun _ _ => Ready settings full owner address address' none) ?_ ?_
    · exact follows_openOwner _ fun known known' h =>
        ⟨h.mirrors.openOwner _, h.clear, h.clear', h.made⟩
    · intro _ _
      simp only [hkey, Bool.not_true, Bool.false_eq_true, if_false]
      refine Follows.get_bind ?_ ?_
      · intro known
        rw [pure_bind]
        split
        next => exact .refl _
        next => exact hnew.grows known
      · intro known known' hready
        rw [pure_bind, pure_bind]
        have hlookup : known'.catalogue.local? owner.interface plan.name =
            known.catalogue.local? owner.interface plan.name := by
          rw [Catalogue.local?, Catalogue.local?, hready.mirrors.locals]
        simp only [Option.getD_some, hlookup]
        split
        next =>
          refine .pure ?_
          rintro _ _ ⟨rfl, rfl⟩
          exact ⟨hready.mirrors, names_of_plan hplan hkey⟩
        next =>
          refine hnew.imp ?_ fun _ _ _ _ h => h
          rintro _ _ ⟨rfl, rfl⟩
          exact hready

/-- A run and its mirror derive the same reference, and none of them will look up
what is remembered of the other's address. -/
def Derived (settings : Settings) (full : Catalogue) (owner : Owner)
    (address address' : Address) (result : TypeRef × Option TypeRef)
    (known known' : Knowledge) : Prop :=
  settings.Names owner.name result.1.name ∧
    Ready settings full owner address address' result.2 known known'

/-- A run and its mirror resolve a type to the same reference. -/
def Resolved (settings : Settings) (full : Catalogue) (owner : Owner) (ref : TypeRef)
    (known known' : Knowledge) : Prop :=
  Mirrors settings full owner.interface known known' ∧ settings.Types owner.name ref

/-- Nothing is remembered at the address of a type in a run and its mirror. -/
def Fresh (settings : Settings) (full : Catalogue) (interface : Text)
    (address address' : Address) (known known' : Knowledge) : Prop :=
  Mirrors settings full interface known known' ∧ known.Clear address ∧ known'.Clear address'

theorem follows_remember (ref : TypeRef) :
    Follows full (Resolved settings full owner ref)
      (do
        modify fun known : Knowledge =>
          { known with resolved := (address, ref) :: known.resolved }
        pure ref)
      (do
        modify fun known : Knowledge =>
          { known with resolved := (address', ref) :: known.resolved }
        pure ref)
      (Same (Resolved settings full owner)) where
  grows known := ⟨.refl _, List.suffix_cons _ _⟩
  follows hpre hrun _ := by
    rw [outcome_bind, outcome_modify] at hrun
    obtain ⟨rfl, rfl⟩ : ref = _ ∧ _ = _ := by simpa using hrun
    refine ⟨ref, _, rfl, rfl, ?_, hpre.2⟩
    exact hpre.1.of_catalogues rfl rfl

theorem follows_resolveOnce (htargets : settings.ProperTargets) {expression : Text}
    {derived derived' : Resolving TypeRef}
    (hderived : Follows full (Ready settings full owner address address' none) derived derived'
      (Same fun ref known known' => settings.Names owner.name ref.name ∧
        Mirrors settings full owner.interface known known')) :
    Follows full (Fresh settings full owner.interface address address')
      (resolveOnce settings owner address expression derived)
      (resolveOnce settings owner address' expression derived')
      (Same (Resolved settings full owner)) := by
  have hlater : Follows full (Ready settings full owner address address' none)
      (do
        let ref ← derived
        modify fun known : Knowledge =>
          { known with resolved := (address, ref) :: known.resolved }
        pure ref)
      (do
        let ref ← derived'
        modify fun known : Knowledge =>
          { known with resolved := (address', ref) :: known.resolved }
        pure ref)
      (Same (Resolved settings full owner)) := by
    refine hderived.bind_same fun ref => (follows_remember ref).imp ?_ fun _ _ _ _ h => h
    rintro known known' ⟨hnames, hmirrors⟩
    exact ⟨hmirrors, Json.proper_of_isKey hnames.1, fun _ => hnames⟩
  unfold resolveOnce
  refine Follows.get_bind ?_ ?_
  · intro known
    split
    next => exact .refl _
    next =>
      rw [outcome_bind, outcome_ofExcept]
      cases replacement? settings owner.path expression with
      | error failure => exact .refl _
      | ok replaced =>
          cases replaced with
          | some ref =>
              exact ⟨.refl _, List.suffix_cons _ _⟩
          | none => exact hlater.grows known
  · rintro known known' ⟨hmirrors, hclear, hclear'⟩
    rw [hclear.lookup, hclear'.lookup]
    refine .ofExcept_bind fun replaced hreplaced => ?_
    cases replaced with
    | some ref =>
        refine (follows_remember ref).imp ?_ fun _ _ _ _ h => h
        rintro _ _ ⟨rfl, rfl⟩
        obtain ⟨replaced, hoverride, rfl⟩ := replacement?_some hreplaced
        have htarget := htargets _ _ hoverride
        refine ⟨hmirrors, ?_, ?_⟩
        · split <;> exact htarget
        · split <;> simp [TypeRef.enum, TypeRef.globalClass, TypeRef.isNullable]
    | none =>
        refine hlater.imp ?_ fun _ _ _ _ h => h
        rintro _ _ ⟨rfl, rfl⟩
        exact ⟨hmirrors, fun _ => hclear.below, fun _ => hclear'.below, by simp⟩

/-! ## What stays clear -/

/-- While a type is resolved, nothing becomes known at addresses apart from its own. -/
theorem resolveType_clear {type : TypeNode} {addresses : Address → Prop} {known : Knowledge}
    (hapart : ∀ other, addresses other → address.Apart other)
    (hclear : ∀ other, addresses other → known.Clear other) :
    ∀ other, addresses other →
      (Resolving.outcome (resolveType settings owner address type) known).2.Clear other := by
  have huntouched : known.Untouched [] addresses := ⟨by simp, hclear⟩
  exact (Contract.meets_resolveType (C := untouchedContract settings [] addresses) type
    ⟨by simp, hapart⟩ huntouched).keeps.memory

/-- Nothing is remembered of the properties from this position on. -/
def ClearFrom (address : Address) (position : Nat) (known : Knowledge) : Prop :=
  ∀ other, (∃ p, position ≤ p ∧ other = p :: address) → known.Clear other

theorem resolveType_clearFrom {type : TypeNode} {position : Nat} {known : Knowledge}
    (hclear : ClearFrom address (position + 1) known) :
    ClearFrom address (position + 1)
      (Resolving.outcome (resolveType settings owner (position :: address) type) known).2 := by
  refine resolveType_clear ?_ hclear
  rintro _ ⟨p, hp, rfl⟩
  exact Address.apart_of_ne (by omega) address

theorem ClearFrom.of_clear {position : Nat} {known : Knowledge}
    (hclear : known.Clear address) : ClearFrom address position known := by
  rintro _ ⟨p, -, rfl⟩
  exact hclear.below p

theorem ClearFrom.here {position : Nat} {known : Knowledge}
    (hclear : ClearFrom address position known) : known.Clear (position :: address) :=
  hclear _ ⟨position, Nat.le_refl _, rfl⟩

theorem ClearFrom.succ {position : Nat} {known : Knowledge}
    (hclear : ClearFrom address position known) : ClearFrom address (position + 1) known := by
  rintro _ ⟨p, hp, rfl⟩
  exact hclear _ ⟨p, by omega, rfl⟩

/-- Nothing is remembered of the properties from this position on in a run and its
mirror. -/
def FreshFrom (settings : Settings) (full : Catalogue) (interface : Text)
    (address address' : Address) (position : Nat) (known known' : Knowledge) : Prop :=
  Mirrors settings full interface known known' ∧
    ClearFrom address position known ∧ ClearFrom address' position known'

/-- A step at one position leaves the positions after it clear. -/
theorem Follows.at_position {α : Type} {interface : Text} {position : Nat}
    {step mirror : Resolving α} {post : α → Knowledge → Knowledge → Prop}
    (hstep : Follows full (Fresh settings full interface (position :: address)
      (position :: address')) step mirror (Same post))
    (hpost : ∀ a known known', post a known known' →
      Mirrors settings full interface known known')
    (hclear : ∀ known, ClearFrom address (position + 1) known →
      ClearFrom address (position + 1) (step.outcome known).2)
    (hclear' : ∀ known, ClearFrom address' (position + 1) known →
      ClearFrom address' (position + 1) (mirror.outcome known).2) :
    Follows full (FreshFrom settings full interface address address' position) step mirror
      (Same fun a known known' => post a known known' ∧
        FreshFrom settings full interface address address' (position + 1) known known') := by
  refine (hstep.frame _ _ hclear hclear').imp ?_ ?_
  · rintro known known' ⟨hmirrors, hknown, hknown'⟩
    exact ⟨⟨hmirrors, hknown.here, hknown'.here⟩, hknown.succ, hknown'.succ⟩
  · rintro a _ known known' ⟨⟨rfl, ha⟩, hknown⟩
    exact ⟨rfl, ha, hpost a known known' ha, hknown⟩

theorem follows_resolveType_of (htargets : settings.ProperTargets) {type : TypeNode}
    (hconvert : Follows full (Ready settings full owner address address' none)
      (convert settings owner address .outer false none type)
      (convert settings owner address' .outer false none type)
      (Same (Derived settings full owner address address'))) :
    Follows full (Fresh settings full owner.interface address address')
      (resolveType settings owner address type) (resolveType settings owner address' type)
      (Same (Resolved settings full owner)) := by
  refine follows_resolveOnce htargets (hconvert.bind_same ?_)
  rintro ⟨ref, made⟩
  exact .pure fun known known' h => ⟨rfl, h.1, h.2.mirrors⟩

/-! ## The induction -/

mutual

theorem follows_convert (hproper : Proper settings full) (depth : Depth) (fixed : Bool)
    (made : Option TypeRef) (node : TypeNode) (owner : Owner) (address address' : Address) :
    Follows full (Ready settings full owner address address' made)
      (convert settings owner address depth fixed made node)
      (convert settings owner address' depth fixed made node)
      (Same (Derived settings full owner address address')) := by
  have hbuiltin : ∀ spelling made,
      Follows full (Ready settings full owner address address' made)
        (pure (.builtin spelling, made)) (pure (.builtin spelling, made))
        (Same (Derived settings full owner address address')) :=
    fun spelling made => .pure fun known known' hready =>
      ⟨rfl, ⟨rfl, .inl ⟨spelling, rfl⟩⟩, hready⟩
  have hafter : ∀ {result : TypeRef × Option TypeRef}
      {step step' : Resolving (TypeRef × Option TypeRef)},
      Follows full (Ready settings full owner address address' result.2) step step'
        (Same (Derived settings full owner address address')) →
      Follows full (Derived settings full owner address address' result) step step'
        (Same (Derived settings full owner address address')) :=
    fun hstep => hstep.imp (fun _ _ h => h.2) fun _ _ _ _ h => h
  cases node with
  | primitive name path =>
      rw [convert, convert]
      split
      next => exact .throw
      next => exact hbuiltin _ _
  | array path element =>
      rw [convert, convert]
      refine (follows_convert hproper .inner fixed made element owner address
        address').bind_same ?_
      rintro ⟨element', made'⟩
      refine hafter ?_
      simp only
      split
      next => exact hbuiltin _ _
      next => exact .ofExcept_bind fun spelling _ => hbuiltin _ _
  | map name path key value =>
      rw [convert, convert]
      split
      next => exact .throw
      next =>
        refine (follows_convert hproper .inner false made key owner address
          address').bind_same ?_
        rintro ⟨key', made'⟩
        refine hafter ?_
        refine (follows_convert hproper .inner false made' value owner address
          address').bind_same ?_
        rintro ⟨value', made''⟩
        exact hafter (.ofExcept_bind fun spelling _ => hbuiltin _ _)
  | generic name path args =>
      rcases args with _ | ⟨arg, _ | ⟨other, rest⟩⟩
      · rw [convert, convert]
        · exact .throw
        · simp
        · simp
      · rw [convert, convert]
        split
        next => exact follows_convert hproper depth fixed made arg owner address address'
        next => exact .throw
      · rw [convert, convert]
        · exact .throw
        · simp
        · simp
  | bareFunction path result =>
      rw [convert, convert]
      exact .throw
  | function path args result =>
      rcases args with _ | ⟨arg, _ | ⟨other, rest⟩⟩
      · rw [convert, convert]
        · exact .throw
        · simp
        · simp
      · rw [convert, convert]
        refine (follows_convert hproper .inner false made arg owner address
          address').bind_same ?_
        rintro ⟨arg', made'⟩
        refine hafter ?_
        simp only
        split
        next => exact .ofExcept_bind fun spelling _ => hbuiltin _ _
        next => exact .ofExcept_bind fun spelling _ => hbuiltin _ _
        next => exact .throw
      · rw [convert, convert]
        · exact .throw
        · simp
        · simp
  | union name path members =>
      rw [convert, convert]
      split
      next =>
        refine follows_enumFor.bind fun enum enum' => .pure ?_
        rintro known known' ⟨hname, hready⟩
        rw [hname]
        exact ⟨rfl, ⟨rfl, .inl ⟨_, rfl⟩⟩, hready⟩
      next =>
        simp only
        split
        next => exact hbuiltin _ _
        next => exact .throw
        next kind =>
          split
          next =>
            refine (follows_convertNullable hproper made members owner address
              address').bind_same ?_
            rintro ⟨ref, made'⟩
            refine .pure ?_
            rintro known known' ⟨hnames, hready⟩
            refine ⟨rfl, ?_, hready⟩
            cases ref
            exact hnames
          next =>
            split
            next =>
              refine (follows_convertVariants hproper _ made members owner address
                address').bind_same ?_
              rintro ⟨variants, made'⟩
              exact .pure fun known known' hready => ⟨rfl, ⟨rfl, .inl ⟨_, rfl⟩⟩, hready⟩
            next =>
              refine (follows_convertVariants hproper _ made members owner address
                address').bind_same ?_
              rintro ⟨variants, made'⟩
              refine .pure fun known known' hready => ⟨rfl, ?_, hready⟩
              cases made' with
              | none => exact ⟨rfl, .inl ⟨_, rfl⟩⟩
              | some ref => exact hready.made ref rfl
            next => exact .throw
  | record path properties =>
      cases made with
      | some ref =>
          rw [convert, convert]
          exact .pure fun known known' hready => ⟨rfl, hready.made ref rfl, hready⟩
      | none =>
          rw [convert, convert]
          -- Only here does the induction need that no property has been looked up.
          refine .ofExcept_bind fun plan hplan => ?_
          refine (follows_classFor hproper.classes hplan
            ((follows_convertFields hproper plan.name.display 0 properties owner address
              address').imp ?_ fun _ _ _ _ h => h)).bind ?_
          · intro known known' hready
            refine ⟨hready.mirrors, ?_, ?_⟩
            · rintro _ ⟨p, -, rfl⟩
              exact hready.clear rfl p
            · rintro _ ⟨p, -, rfl⟩
              exact hready.clear' rfl p
          · intro _ _
            refine .pure ?_
            rintro known known' ⟨hmirrors, hnames⟩
            refine ⟨rfl, hnames, hmirrors, by simp, by simp, ?_⟩
            rintro _ ⟨rfl⟩
            exact hnames

theorem follows_convertNullable (hproper : Proper settings full) (made : Option TypeRef)
    (members : List TypeNode) (owner : Owner) (address address' : Address) :
    Follows full (Ready settings full owner address address' made)
      (convertNullable settings owner address made members)
      (convertNullable settings owner address' made members)
      (Same (Derived settings full owner address address')) := by
  cases members with
  | nil =>
      rw [convertNullable, convertNullable]
      exact .pure fun known known' hready => ⟨rfl, ⟨rfl, .inl ⟨_, rfl⟩⟩, hready⟩
  | cons member rest =>
      rw [convertNullable, convertNullable]
      split
      next => exact follows_convert hproper .inner false made member owner address address'
      next => exact follows_convertNullable hproper made rest owner address address'

theorem follows_convertVariants (hproper : Proper settings full) (fixed : Bool)
    (made : Option TypeRef) (members : List TypeNode) (owner : Owner) (address address' : Address) :
    Follows full (Ready settings full owner address address' made)
      (convertVariants settings owner address fixed made members)
      (convertVariants settings owner address' fixed made members)
      (Same fun result => Ready settings full owner address address' result.2) := by
  cases members with
  | nil =>
      rw [convertVariants, convertVariants]
      exact .pure fun known known' hready => ⟨rfl, hready⟩
  | cons member rest =>
      rw [convertVariants, convertVariants]
      split
      next =>
        refine (follows_convert hproper .inner fixed made member owner address
          address').bind_same ?_
        rintro ⟨ref, made'⟩
        refine Follows.bind_same (M := fun result =>
          Ready settings full owner address address' result.2) ?_ ?_
        · exact (follows_convertVariants hproper fixed made' rest owner address address').imp
            (fun _ _ h => h.2) fun _ _ _ _ h => h
        · rintro ⟨refs, made''⟩
          exact .pure fun known known' hready => ⟨rfl, hready⟩
      next => exact follows_convertVariants hproper fixed made rest owner address address'

theorem follows_convertFields (hproper : Proper settings full) (className : Text)
    (position : Nat) (properties : List (Slot TypeNode)) (owner : Owner)
    (address address' : Address) :
    Follows full (FreshFrom settings full owner.interface address address' position)
      (convertFields settings owner address className position properties)
      (convertFields settings owner address' className position properties)
      (Same (Fielded settings full owner)) := by
  cases properties with
  | nil =>
      rw [convertFields, convertFields]
      exact .pure fun known known' h => ⟨rfl, h.1, by simp⟩
  | cons property rest =>
      obtain ⟨name, path, type, required, comment⟩ := property
      rw [convertFields, convertFields]
      have htype := follows_resolveType_of hproper.targets
        (follows_convert hproper .outer false none type (owner.property path name className)
          (position :: address) (position :: address'))
      refine (htype.at_position (fun _ _ _ h => h.1) (fun _ => resolveType_clearFrom)
        fun _ => resolveType_clearFrom).bind_same ?_
      intro ref
      refine Follows.bind_same (M := fun fields known known' =>
        Fielded settings full owner fields known known' ∧ settings.Types name ref) ?_ ?_
      · refine ((follows_convertFields hproper className (position + 1) rest owner
          address address').frame (fun _ => settings.Types name ref) (fun _ => True)
            ?_ ?_).imp ?_ ?_
        · exact fun _ htypes => htypes
        · exact fun _ _ => trivial
        · rintro known known' ⟨⟨-, htypes⟩, hfresh⟩
          exact ⟨hfresh, htypes, trivial⟩
        · rintro fields _ known known' ⟨⟨rfl, hfielded⟩, htypes, -⟩
          exact ⟨rfl, hfielded, htypes⟩
      · intro fields
        refine .pure ?_
        rintro known known' ⟨⟨hmirrors, hfields⟩, htypes⟩
        exact ⟨rfl, hmirrors, List.forall_mem_cons.mpr ⟨⟨ref, rfl, htypes⟩, hfields⟩⟩

end

theorem follows_resolveType (hproper : Proper settings full) (type : TypeNode) (owner : Owner)
    (address address' : Address) :
    Follows full (Fresh settings full owner.interface address address')
      (resolveType settings owner address type) (resolveType settings owner address' type)
      (Same (Resolved settings full owner)) :=
  follows_resolveType_of hproper.targets
    (follows_convert hproper .outer false none type owner address address')

theorem follows_resolve (hproper : Proper settings full)
    (type : Option TypeNode) (owner : Owner) (address address' : Address) :
    Follows full (Fresh settings full owner.interface address address')
      (resolve settings owner address type) (resolve settings owner address' type)
      (Same (Resolved settings full owner)) := by
  cases type with
  | none =>
      exact .pure fun known known' h =>
        ⟨rfl, h.1, trivial, by simp [TypeRef.builtin, TypeRef.isNullable]⟩
  | some type => exact follows_resolveType hproper type owner address address'

end
end Resolving
end ApiBindings
