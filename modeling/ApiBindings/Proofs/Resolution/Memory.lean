import ApiBindings.Proofs.Resolution.Registration
/-!
# Resolving once

Resolving a type calls for the types of properties to be resolved, and so on down.
The calls of a run, in the order in which they start, show what memory is for: a
type whose address was resolved before is returned as it was then, and nothing else
happens.

A call that returns is remembered at once, and from then on its address leads to its
result.  This has to be seen at every depth, because a call around it may fail
afterwards, or return and be remembered in its turn.  Neither undoes it: the calls
inside a call are for addresses below its own, so that its own address is still free
when it is remembered.
-/

namespace ApiBindings

/-- A call to resolve the type at an address for an owner, and what is known when it
is made. -/
structure Call where
  owner : Owner
  address : Address
  type : TypeNode
  known : Knowledge

def Call.outcome (settings : Settings) (call : Call) : Except Failure TypeRef × Knowledge :=
  Resolving.outcome (resolve settings call.owner call.address (some call.type)) call.known

/-- If the earlier of two calls for the same address has returned a reference, the later
one returns the same, and what is known stays as it is. -/
def Call.Repeats (settings : Settings) (earlier later : Call) : Prop :=
  later.address = earlier.address → ∀ ref, (earlier.outcome settings).1 = .ok ref →
    later.outcome settings = (.ok ref, later.known)

/-! ## The calls of a run -/

/-- The calls of a step and, if it succeeds, of what comes next. -/
def Resolving.callsThen {α : Type} (first : Resolving α) (calls : Knowledge → List Call)
    (next : α → Knowledge → List Call) (known : Knowledge) : List Call :=
  calls known ++
    match first.outcome known with
    | (.ok a, after) => next a after
    | (.error _, _) => []

/-- The calls to resolve the fields of a class, if it is not there already. -/
def classForCalls (name : Json) (scope : Scope) (owner : Option Text)
    (fields : Knowledge → List Call) (known : Knowledge) : List Call :=
  match scope with
  | .global => fields known
  | .ownerLocal =>
    let opened := { known with catalogue := known.catalogue.openOwner (owner.getD []) }
    if name.isKey ∧ (opened.catalogue.local? (owner.getD []) name).isNone then fields opened
    else []

/-- The calls that begin with the one for an address.  There are others only if the type
is neither remembered nor replaced. -/
def onceCalls (settings : Settings) (owner : Owner) (address : Address) (type : TypeNode)
    (derived : Knowledge → List Call) (known : Knowledge) : List Call :=
  ⟨owner, address, type, known⟩ ::
    match known.resolved.lookup address, replacement? settings owner.path type.expression with
    | none, .ok none => derived known
    | _, _ => []

def noCalls : Knowledge → List Call :=
  fun _ => []

mutual

/-- The calls to resolve the properties of the first record below an address. -/
def convertCalls (settings : Settings) (owner : Owner) (address : Address) (depth : Depth)
    (fixed : Bool) (madeClass : Option TypeRef) : TypeNode → Knowledge → List Call
  | .primitive .. => noCalls
  | .array _ element => convertCalls settings owner address .inner fixed madeClass element
  | .map name path key value =>
    if name = "Object" ∧ !objectMaps.contains (TypeNode.expression (.map name path key value)) then
      noCalls
    else
      Resolving.callsThen (convert settings owner address .inner false madeClass key)
        (convertCalls settings owner address .inner false madeClass key)
        fun (_, madeClass) => convertCalls settings owner address .inner false madeClass value
  | .generic name _ args =>
    match args with
    | [arg] =>
      if name = "Promise" then convertCalls settings owner address depth fixed madeClass arg
      else noCalls
    | _ => noCalls
  | .bareFunction .. => noCalls
  | .function _ args _ =>
    match args with
    | [arg] => convertCalls settings owner address .inner false madeClass arg
    | _ => noCalls
  | .union name _ members =>
    if name ≠ "" then noCalls
    else
      match depth with
      | .inner => noCalls
      | .outer =>
        if (TypeNode.nullableMember? members).isSome then
          nullableCalls settings owner address madeClass members
        else
          match owner.kind with
          | .param =>
            let arrays := (TypeNode.variants members).countP TypeNode.isArray
            variantsCalls settings owner address (decide (1 < arrays)) madeClass members
          | .field => variantsCalls settings owner address false madeClass members
          | _ => noCalls
  | .record _ properties =>
    match madeClass with
    | some _ => noCalls
    | none =>
      match ClassPlan.of settings owner with
      | .error _ => noCalls
      | .ok plan =>
        classForCalls plan.name plan.scope plan.owner
          (fieldsCalls settings owner address plan.name.display 0 properties)

def nullableCalls (settings : Settings) (owner : Owner) (address : Address)
    (madeClass : Option TypeRef) : List TypeNode → Knowledge → List Call
  | [] => noCalls
  | member :: rest =>
    if member.isVariant then convertCalls settings owner address .inner false madeClass member
    else nullableCalls settings owner address madeClass rest

def variantsCalls (settings : Settings) (owner : Owner) (address : Address) (fixed : Bool)
    (madeClass : Option TypeRef) : List TypeNode → Knowledge → List Call
  | [] => noCalls
  | member :: rest =>
    if member.isVariant then
      Resolving.callsThen (convert settings owner address .inner fixed madeClass member)
        (convertCalls settings owner address .inner fixed madeClass member)
        fun (_, madeClass) => variantsCalls settings owner address fixed madeClass rest
    else variantsCalls settings owner address fixed madeClass rest

def fieldsCalls (settings : Settings) (owner : Owner) (address : Address) (className : Text)
    (position : Nat) : List (Slot TypeNode) → Knowledge → List Call
  | [] => noCalls
  | ⟨name, path, type, _, _⟩ :: rest =>
    let owner' := owner.property path name className
    let address' := address.property position
    Resolving.callsThen (resolveType settings owner' address' type)
      (onceCalls settings owner' address' type
        (convertCalls settings owner' address' .outer false none type))
      fun _ => fieldsCalls settings owner address className (position + 1) rest

end

/-- The call to resolve the type at an address, and those inside it. -/
def resolveCalls (settings : Settings) (owner : Owner) (address : Address) (type : TypeNode) :
    Knowledge → List Call :=
  onceCalls settings owner address type
    (convertCalls settings owner address .outer false none type)

mutual

def Registration.calls (settings : Settings) : Registration → Knowledge → List Call
  | .resolve owner address type =>
    match type with
    | none => noCalls
    | some type => resolveCalls settings owner address type
  | .newClass name type scope owner _ making _ =>
    classForCalls name scope owner <|
      match Catalogue.classRecord type with
      | .ok (some _) => attemptAllCalls settings making
      | _ => noCalls
  | .enum .. => noCalls
  | .ofClass .. => noCalls

/-- The calls to resolve a type that steps make, from the first to the last. -/
def attemptAllCalls (settings : Settings) : List Registration → Knowledge → List Call
  | [], _ => []
  | step :: rest, known =>
    step.calls settings known ++ attemptAllCalls settings rest (step.attempt settings known)

end

/-! ## Memory -/

def Address.Above (a b : Address) : Prop :=
  a <:+ b ∧ a.length < b.length

theorem Address.above_property (address : Address) (position : Nat) :
    address.Above (address.property position) :=
  ⟨List.suffix_cons _ _, Nat.lt_succ_self _⟩

theorem Address.Above.trans {a b c : Address} (hab : a.Above b) (hbc : b.Above c) :
    a.Above c :=
  ⟨hab.1.trans hbc.1, Nat.lt_trans hab.2 hbc.2⟩

theorem Address.not_above_self (address : Address) : ¬address.Above address :=
  fun habove => absurd habove.2 (Nat.lt_irrefl _)

namespace Knowledge

/-- What is remembered at an address stays so. -/
def Recalls (before after : Knowledge) : Prop :=
  ∀ address ref, before.resolved.lookup address = some ref →
    after.resolved.lookup address = some ref

theorem Recalls.refl (known : Knowledge) : known.Recalls known :=
  fun _ _ hfound => hfound

theorem Recalls.trans {a b c : Knowledge} (hab : a.Recalls b) (hbc : b.Recalls c) :
    a.Recalls c :=
  fun address ref hfound => hbc address ref (hab address ref hfound)

def remember (known : Knowledge) (address : Address) (ref : TypeRef) : Knowledge :=
  { known with resolved := (address, ref) :: known.resolved }

theorem lookup_remember_self (known : Knowledge) (address : Address) (ref : TypeRef) :
    (known.remember address ref).resolved.lookup address = some ref := by
  simp [remember]

theorem lookup_remember_of_ne (known : Knowledge) {address other : Address} (ref : TypeRef)
    (hne : other ≠ address) :
    (known.remember address ref).resolved.lookup other = known.resolved.lookup other := by
  have hother : (other == address) = false := beq_eq_false_iff_ne.mpr hne
  rw [remember, List.lookup_cons, hother]

theorem recalls_remember {known : Knowledge} {address : Address} (ref : TypeRef)
    (hfree : known.resolved.lookup address = none) : known.Recalls (known.remember address ref) := by
  intro other found hfound
  have hne : other ≠ address := by
    rintro rfl
    exact nomatch hfree.symm.trans hfound
  rw [lookup_remember_of_ne _ _ hne]
  exact hfound

end Knowledge

theorem Call.outcome_of_lookup {settings : Settings} {call : Call} {ref : TypeRef}
    (hfound : call.known.resolved.lookup call.address = some ref) :
    call.outcome settings = (.ok ref, call.known) := by
  unfold Call.outcome resolve resolveType resolveOnce
  rw [Resolving.outcome_get_bind, hfound]
  rfl

/-- These calls, for addresses that `within` admits, are the ones between two moments.
Each of them starts with all that was remembered before, and when all of them are over,
what is remembered is what was so before and what they have returned. -/
structure Log (settings : Settings) (within : Address → Prop) (before : Knowledge)
    (calls : List Call) (after : Knowledge) : Prop where
  admitted : ∀ call ∈ calls, within call.address
  starts : ∀ call ∈ calls, before.Recalls call.known
  recalls : before.Recalls after
  returned : ∀ call ∈ calls, ∀ ref, (call.outcome settings).1 = .ok ref →
    after.resolved.lookup call.address = some ref
  found : ∀ address ref, after.resolved.lookup address = some ref →
    before.resolved.lookup address = some ref ∨
      ∃ call ∈ calls, call.address = address ∧ (call.outcome settings).1 = .ok ref
  repeats : calls.Pairwise (Call.Repeats settings)

namespace Log

variable {settings : Settings} {within within' : Address → Prop} {before middle after : Knowledge}
  {calls : List Call}

theorem quiet (hsame : after.resolved = before.resolved) : Log settings within before [] after where
  admitted := nofun
  starts := nofun
  recalls _ _ hfound := hsame ▸ hfound
  returned := nofun
  found _ _ hfound := .inl (hsame ▸ hfound)
  repeats := .nil

theorem mono (hlog : Log settings within before calls after)
    (hwithin : ∀ address, within address → within' address) :
    Log settings within' before calls after :=
  { hlog with admitted := fun call hcall => hwithin _ (hlog.admitted call hcall) }

theorem append {later : List Call} (hcalls : Log settings within before calls middle)
    (hlater : Log settings within middle later after) :
    Log settings within before (calls ++ later) after where
  admitted := List.forall_mem_append.mpr ⟨hcalls.admitted, hlater.admitted⟩
  starts := List.forall_mem_append.mpr
    ⟨hcalls.starts, fun call hcall => hcalls.recalls.trans (hlater.starts call hcall)⟩
  recalls := hcalls.recalls.trans hlater.recalls
  returned := List.forall_mem_append.mpr
    ⟨fun call hcall ref hok => hlater.recalls _ _ (hcalls.returned call hcall ref hok),
      hlater.returned⟩
  found address ref hfound := by
    rcases hlater.found address ref hfound with hmiddle | ⟨call, hcall, hreturned⟩
    · rcases hcalls.found address ref hmiddle with hbefore | ⟨call, hcall, hreturned⟩
      · exact .inl hbefore
      · exact .inr ⟨call, List.mem_append_left _ hcall, hreturned⟩
    · exact .inr ⟨call, List.mem_append_right _ hcall, hreturned⟩
  repeats := by
    refine List.pairwise_append.mpr ⟨hcalls.repeats, hlater.repeats, ?_⟩
    intro first hfirst second hsecond hsame ref hok
    -- what the first call has returned is remembered in the middle, where the second one starts
    have hmiddle := hcalls.returned first hfirst ref hok
    rw [← hsame] at hmiddle
    exact Call.outcome_of_lookup (hlater.starts second hsecond _ _ hmiddle)

/-- A call stands before the calls inside it, all of which are for addresses below.  What is
remembered at its end is what they have left and its own result. -/
theorem cons (call : Call)
    (hinside : Log settings call.address.Above call.known calls middle)
    (hrecalls : middle.Recalls after)
    (hreturned : ∀ ref, (call.outcome settings).1 = .ok ref →
      after.resolved.lookup call.address = some ref)
    (hfound : ∀ address ref, after.resolved.lookup address = some ref →
      middle.resolved.lookup address = some ref ∨
        call.address = address ∧ (call.outcome settings).1 = .ok ref) :
    Log settings (fun address => call.address = address ∨ call.address.Above address)
      call.known (call :: calls) after where
  admitted := List.forall_mem_cons.mpr
    ⟨.inl rfl, fun inner hinner => .inr (hinside.admitted inner hinner)⟩
  starts := List.forall_mem_cons.mpr ⟨.refl _, hinside.starts⟩
  recalls := hinside.recalls.trans hrecalls
  returned := List.forall_mem_cons.mpr
    ⟨hreturned, fun inner hinner ref hok => hrecalls _ _ (hinside.returned inner hinner ref hok)⟩
  found address ref hafter := by
    rcases hfound address ref hafter with hmiddle | ⟨hsame, hok⟩
    · rcases hinside.found address ref hmiddle with hbefore | ⟨inner, hinner, hinnerReturned⟩
      · exact .inl hbefore
      · exact .inr ⟨inner, List.mem_cons_of_mem _ hinner, hinnerReturned⟩
    · exact .inr ⟨call, List.mem_cons_self, hsame, hok⟩
  repeats := by
    refine .cons ?_ hinside.repeats
    intro inner hinner hsame
    have habove := hinside.admitted inner hinner
    rw [hsame] at habove
    exact absurd habove (Address.not_above_self _)

theorem free {address : Address} (hlog : Log settings address.Above before calls after)
    (hfree : before.resolved.lookup address = none) : after.resolved.lookup address = none := by
  cases hlookup : after.resolved.lookup address with
  | none => rfl
  | some ref =>
      rcases hlog.found address ref hlookup with hbefore | ⟨call, hcall, hsame, -⟩
      · exact nomatch hfree.symm.trans hbefore
      · have habove := hlog.admitted call hcall
        rw [hsame] at habove
        exact absurd habove (Address.not_above_self _)

theorem failing (call : Call) {failure : Failure}
    (hinside : Log settings call.address.Above call.known calls after)
    (hended : call.outcome settings = (.error failure, after)) :
    Log settings (fun address => call.address = address ∨ call.address.Above address)
      call.known (call :: calls) after := by
  refine .cons call hinside (.refl _) ?_ fun _ _ => .inl
  intro ref hok
  exact nomatch (congrArg Prod.fst hended).symm.trans hok

theorem returning (call : Call) {ref : TypeRef}
    (hfree : call.known.resolved.lookup call.address = none)
    (hinside : Log settings call.address.Above call.known calls middle)
    (hended : call.outcome settings = (.ok ref, middle.remember call.address ref)) :
    Log settings (fun address => call.address = address ∨ call.address.Above address)
      call.known (call :: calls) (middle.remember call.address ref) := by
  have hreturned : (call.outcome settings).1 = .ok ref := congrArg Prod.fst hended
  refine .cons call hinside (Knowledge.recalls_remember ref (hinside.free hfree)) ?_ ?_
  · intro other hok
    obtain rfl : ref = other := Except.ok.inj (hreturned.symm.trans hok)
    exact Knowledge.lookup_remember_self _ _ _
  · intro address found hfound
    by_cases haddress : address = call.address
    · subst haddress
      rw [Knowledge.lookup_remember_self] at hfound
      exact .inr ⟨rfl, hreturned.trans (congrArg Except.ok (Option.some.inj hfound))⟩
    · rw [Knowledge.lookup_remember_of_ne _ _ haddress] at hfound
      exact .inl hfound

theorem remembered (call : Call) {ref : TypeRef}
    (hfound : call.known.resolved.lookup call.address = some ref) :
    Log settings (fun address => call.address = address ∨ call.address.Above address)
      call.known [call] call.known := by
  refine .cons call (.quiet rfl) (.refl _) ?_ fun _ _ => .inl
  intro other hok
  rw [Call.outcome_of_lookup hfound] at hok
  exact hfound.trans (congrArg some (Except.ok.inj hok))

end Log

/-! ## One call -/

namespace Resolving

variable {settings : Settings}

/-- A step makes these calls, for addresses that `within` admits. -/
def Logged {α : Type} (settings : Settings) (within : Address → Prop) (step : Resolving α)
    (calls : Knowledge → List Call) : Prop :=
  ∀ known, Log settings within known (calls known) (step.outcome known).2

/-- A type at an address is remembered there when it has been resolved.  This needs that its
address stays free in the meantime, so the calls inside have to be for addresses below. -/
theorem logged_resolveType (owner : Owner) (address : Address) (type : TypeNode)
    (hconvert : Logged settings address.Above
      (convert settings owner address .outer false none type)
      (convertCalls settings owner address .outer false none type)) :
    Logged settings (fun other => address = other ∨ address.Above other)
      (resolveType settings owner address type) (resolveCalls settings owner address type) := by
  intro known
  let call : Call := ⟨owner, address, type, known⟩
  have hcalls : resolveCalls settings owner address type known = call ::
      match known.resolved.lookup address, replacement? settings owner.path type.expression with
      | none, .ok none => convertCalls settings owner address .outer false none type known
      | _, _ => [] := rfl
  rw [hcalls]
  cases hlookup : known.resolved.lookup address with
  | some ref =>
      have hended : call.outcome settings = (.ok ref, known) := Call.outcome_of_lookup hlookup
      have hlog : Log settings _ known [call] known := .remembered call hlookup
      exact (congrArg Prod.snd hended) ▸ hlog
  | none =>
      have hended : call.outcome settings =
          outcome (resolveType settings owner address type) known := rfl
      rw [outcome_resolveType_of_free hlookup] at hended
      show Log settings _ known _ (call.outcome settings).2
      rcases hreplaced : replacement? settings owner.path type.expression with failure | replaced
      · rw [hreplaced] at hended
        rw [hended]
        exact .failing call (.quiet rfl) hended
      · cases replaced with
        | some ref =>
            rw [hreplaced] at hended
            rw [hended]
            exact .returning call hlookup (.quiet rfl) hended
        | none =>
            have hinside := hconvert known
            rcases hrun : outcome (convert settings owner address .outer false none type) known with
              ⟨failure | ⟨ref, madeClass⟩, after⟩
            · rw [hreplaced, hrun] at hended
              rw [hrun] at hinside
              rw [hended]
              exact .failing call hinside hended
            · rw [hreplaced, hrun] at hended
              rw [hrun] at hinside
              rw [hended]
              exact .returning call hlookup hinside hended

/-! ## The calls inside a call -/

section

variable {α β : Type} {within : Address → Prop}

theorem Logged.mono {within' : Address → Prop} {step : Resolving α}
    {calls : Knowledge → List Call} (hstep : Logged settings within step calls)
    (hwithin : ∀ address, within address → within' address) :
    Logged settings within' step calls :=
  fun known => (hstep known).mono hwithin

theorem Logged.pure (a : α) : Logged settings within (pure a) noCalls :=
  fun _ => .quiet rfl

theorem Logged.throw (failure : Failure) :
    Logged settings within (throw failure : Resolving α) noCalls :=
  fun _ => .quiet rfl

theorem Logged.ofExcept (result : Except Failure α) :
    Logged settings within (Resolving.ofExcept result) noCalls := by
  intro known
  rw [outcome_ofExcept]
  exact .quiet rfl

theorem lasting_resolved (resolved : List (Address × TypeRef)) :
    Lasting fun known => known.resolved = resolved where
  openOwner _ hsame := hsame
  enumFor hsame _ := hsame
  addClass hsame _ := hsame

theorem Logged.quiet {step : Resolving α}
    (hstep : ∀ resolved, Preserves (fun known => known.resolved = resolved) step) :
    Logged settings within step noCalls :=
  fun known => .quiet (hstep known.resolved known rfl)

theorem Logged.bind {first : Resolving α} {next : α → Resolving β}
    {calls : Knowledge → List Call} {nextCalls : α → Knowledge → List Call}
    (hfirst : Logged settings within first calls)
    (hnext : ∀ a, Logged settings within (next a) (nextCalls a)) :
    Logged settings within (first >>= next) (callsThen first calls nextCalls) := by
  intro known
  have hcalls := hfirst known
  rw [outcome_bind, callsThen]
  generalize outcome first known = ended at hcalls ⊢
  rcases ended with ⟨failure | a, after⟩
  · rw [List.append_nil]
    exact hcalls
  · exact hcalls.append (hnext a after)

theorem Logged.bind_quiet {first : Resolving α} {next : α → Resolving β}
    {calls : Knowledge → List Call} (hfirst : Logged settings within first calls)
    (hnext : ∀ a, Logged settings within (next a) noCalls) :
    Logged settings within (first >>= next) calls := by
  have hsame : callsThen first calls (fun _ => noCalls) = calls := by
    funext known
    rw [callsThen]
    rcases outcome first known with ⟨failure | a, after⟩ <;> exact List.append_nil _
  rw [← hsame]
  exact hfirst.bind hnext

theorem logged_classFor (name : Json) (path : Text) (scope : Scope) (owner : Option Text)
    (isReturnType : Bool) {fields : Resolving (List Field)} {calls : Knowledge → List Call}
    (hfields : Logged settings within fields calls) :
    Logged settings within (classFor name path scope owner isReturnType fields)
      (classForCalls name scope owner calls) := by
  have hnew : Logged settings within (do
      let fields ← fields
      registerClass { name, fields, scope, path, isReturnType,
                      owner := if scope = .ownerLocal then owner else none }) calls :=
    hfields.bind_quiet fun fields => .quiet fun resolved =>
      (lasting_resolved resolved).preserves_registerClass _
  cases scope with
  | global => exact hnew
  | ownerLocal =>
      have hopen : Logged settings within (openOwner owner) noCalls :=
        .quiet fun resolved => (lasting_resolved resolved).preserves_openOwner owner
      have hcalls : classForCalls name .ownerLocal owner calls =
          callsThen (openOwner owner) noCalls fun _ opened =>
            if name.isKey ∧ (opened.catalogue.local? (owner.getD []) name).isNone then calls opened
            else [] := rfl
      rw [hcalls]
      unfold classFor
      simp only [if_true] at hnew ⊢
      refine hopen.bind fun _ opened => ?_
      -- a name that nothing can be looked up by, or a class that is there, ends the step here
      cases hkey : name.isKey with
      | false => exact .quiet rfl
      | true =>
          simp only [Bool.not_true, Bool.false_eq_true, if_false, true_and]
          rw [outcome_get_bind, pure_bind]
          cases opened.catalogue.local? (owner.getD []) name with
          | some existing => exact .quiet rfl
          | none => exact hnew opened

end

mutual

/-- Converting a type at an address makes calls for addresses below. -/
theorem logged_convert (owner : Owner) (address : Address) (depth : Depth) (fixed : Bool)
    (madeClass : Option TypeRef) (node : TypeNode) :
    Logged settings address.Above (convert settings owner address depth fixed madeClass node)
      (convertCalls settings owner address depth fixed madeClass node) := by
  cases node with
  | primitive name path =>
      rw [convert, convertCalls]
      split
      next => exact .throw _
      next => exact .pure _
  | array path element =>
      rw [convert, convertCalls]
      refine (logged_convert owner address .inner fixed madeClass element).bind_quiet ?_
      rintro ⟨element', madeClass'⟩
      simp only
      split
      next => exact .pure _
      next => exact (Logged.ofExcept _).bind_quiet fun _ => .pure _
  | map name path key value =>
      rw [convert, convertCalls]
      split
      next => exact .throw _
      next =>
        refine (logged_convert owner address .inner false madeClass key).bind ?_
        rintro ⟨key', madeClass'⟩
        refine (logged_convert owner address .inner false madeClass' value).bind_quiet ?_
        rintro ⟨value', madeClass''⟩
        exact (Logged.ofExcept _).bind_quiet fun _ => .pure _
  | generic name path args =>
      rcases args with _ | ⟨arg, _ | ⟨other, rest⟩⟩
      · rw [convert, convertCalls]
        · exact .throw _
        · simp
        · simp
      · rw [convert, convertCalls]
        split
        next => exact logged_convert owner address depth fixed madeClass arg
        next => exact .throw _
      · rw [convert, convertCalls]
        · exact .throw _
        · simp
        · simp
  | bareFunction path result =>
      rw [convert, convertCalls]
      exact .throw _
  | function path args result =>
      rcases args with _ | ⟨arg, _ | ⟨other, rest⟩⟩
      · rw [convert, convertCalls]
        · exact .throw _
        · simp
        · simp
      · rw [convert, convertCalls]
        refine (logged_convert owner address .inner false madeClass arg).bind_quiet ?_
        rintro ⟨arg', madeClass'⟩
        simp only
        split
        next => exact (Logged.ofExcept _).bind_quiet fun _ => .pure _
        next => exact (Logged.ofExcept _).bind_quiet fun _ => .pure _
        next => exact .throw _
      · rw [convert, convertCalls]
        · exact .throw _
        · simp
        · simp
  | union name path members =>
      have henum : Logged settings address.Above (onCatalogue (·.enumFor name path members))
          noCalls :=
        .quiet fun resolved => (lasting_resolved resolved).preserves_enumFor name path members
      cases depth with
      | inner =>
          rw [convert, convertCalls]
          split
          next => exact henum.bind_quiet fun _ => .pure _
          next =>
            cases owner.kind with
            | field => exact .pure _
            | param => exact .throw _
            | method => exact .throw _
            | event => exact .throw _
      | outer =>
          rw [convert, convertCalls]
          split
          next => exact henum.bind_quiet fun _ => .pure _
          next =>
            simp only
            split
            next =>
              exact (logged_convertNullable owner address madeClass members).bind_quiet
                fun _ => .pure _
            next =>
              cases owner.kind with
              | param =>
                  exact (logged_convertVariants owner address _ madeClass members).bind_quiet
                    fun _ => .pure _
              | field =>
                  exact (logged_convertVariants owner address _ madeClass members).bind_quiet
                    fun _ => .pure _
              | method => exact .throw _
              | event => exact .throw _
  | record path properties =>
      cases madeClass with
      | some ref =>
          rw [convert, convertCalls]
          exact .pure _
      | none =>
          rw [convert, convertCalls]
          rcases hplan : ClassPlan.of settings owner with failure | plan
          · exact .throw failure
          · exact (logged_classFor plan.name path plan.scope plan.owner plan.isReturnType
              (logged_convertFields owner address plan.name.display 0 properties)).bind_quiet
              fun _ => .pure _

theorem logged_convertNullable (owner : Owner) (address : Address)
    (madeClass : Option TypeRef) (members : List TypeNode) :
    Logged settings address.Above (convertNullable settings owner address madeClass members)
      (nullableCalls settings owner address madeClass members) := by
  cases members with
  | nil =>
      rw [convertNullable, nullableCalls]
      exact .pure _
  | cons member rest =>
      rw [convertNullable, nullableCalls]
      split
      next => exact logged_convert owner address .inner false madeClass member
      next => exact logged_convertNullable owner address madeClass rest

theorem logged_convertVariants (owner : Owner) (address : Address) (fixed : Bool)
    (madeClass : Option TypeRef) (members : List TypeNode) :
    Logged settings address.Above
      (convertVariants settings owner address fixed madeClass members)
      (variantsCalls settings owner address fixed madeClass members) := by
  cases members with
  | nil =>
      rw [convertVariants, variantsCalls]
      exact .pure _
  | cons member rest =>
      rw [convertVariants, variantsCalls]
      split
      next =>
        refine (logged_convert owner address .inner fixed madeClass member).bind ?_
        rintro ⟨ref, madeClass'⟩
        exact (logged_convertVariants owner address fixed madeClass' rest).bind_quiet
          fun _ => .pure _
      next => exact logged_convertVariants owner address fixed madeClass rest

theorem logged_convertFields (owner : Owner) (address : Address) (className : Text)
    (position : Nat) (properties : List (Slot TypeNode)) :
    Logged settings address.Above
      (convertFields settings owner address className position properties)
      (fieldsCalls settings owner address className position properties) := by
  cases properties with
  | nil =>
      rw [convertFields, fieldsCalls]
      exact .pure _
  | cons property rest =>
      rcases property with ⟨name, path, type, required, comment⟩
      rw [convertFields, fieldsCalls]
      -- a call for the property and all calls inside it are below the record
      have hbelow : ∀ other, address.property position = other ∨
          (address.property position).Above other → address.Above other := by
        rintro other (rfl | habove)
        · exact address.above_property position
        · exact (address.above_property position).trans habove
      have hfield := (logged_resolveType (owner.property path name className)
        (address.property position) type
        (logged_convert _ (address.property position) .outer false none type)).mono hbelow
      refine hfield.bind fun ref => ?_
      exact (logged_convertFields owner address className (position + 1) rest).bind_quiet
        fun _ => .pure _

end

end Resolving

/-! ## A whole history -/

section

variable {settings : Settings}

/-- A log of calls for any addresses. -/
abbrev Log.Free (settings : Settings) (before : Knowledge) (calls : List Call)
    (after : Knowledge) : Prop :=
  Log settings (fun _ => True) before calls after

mutual

theorem Registration.log_attempt (step : Registration) (known : Knowledge) :
    Log.Free settings known (step.calls settings known) (step.attempt settings known) := by
  cases step with
  | resolve owner address type =>
      cases type with
      | none =>
          rw [Registration.calls, Registration.attempt]
          exact .quiet rfl
      | some type =>
          rw [Registration.calls, Registration.attempt]
          have hcall : Resolving.Logged settings _ (resolveType settings owner address type)
              (resolveCalls settings owner address type) :=
            Resolving.logged_resolveType owner address type
              (Resolving.logged_convert owner address .outer false none type)
          exact (hcall known).mono fun _ _ => trivial
  | enum name path members =>
      rw [Registration.calls, Registration.attempt]
      exact .quiet ((Resolving.lasting_resolved _).preserves_enumFor name path members known rfl)
  | newClass name type scope owner isReturnType making fields =>
      rw [Registration.calls, Registration.attempt]
      refine Resolving.logged_classFor name type.path scope owner isReturnType ?_ known
      rcases Catalogue.classRecord type with failure | record
      · exact .throw failure
      · cases record with
        | none => exact .pure []
        | some properties =>
            have hmaking : Resolving.Logged settings (fun _ => True)
                (modify (attemptAll settings making)) (attemptAllCalls settings making) :=
              fun before => log_attemptAll making before
            exact hmaking.bind_quiet fun _ => .ofExcept fields
  | ofClass new =>
      rw [Registration.calls, Registration.attempt]
      exact .quiet ((Resolving.lasting_resolved _).preserves_registerClass new known rfl)

theorem log_attemptAll (steps : List Registration) (known : Knowledge) :
    Log.Free settings known (attemptAllCalls settings steps known)
      (attemptAll settings steps known) := by
  cases steps with
  | nil => exact .quiet rfl
  | cons step rest =>
      rw [attemptAllCalls, attemptAll]
      exact (step.log_attempt known).append (log_attemptAll rest _)

end

end

/-- A type is resolved once.  Of any two calls for one address in a history, at whatever
depth they are made and whatever fails around and between them, the later one returns
what the earlier one has returned and changes nothing, whoever its owner is and whatever
the settings say of it.  What is remembered in the end is what calls have returned. -/
theorem attemptAll_resolves_once (settings : Settings) (steps : List Registration) :
    (attemptAllCalls settings steps .empty).Pairwise (fun earlier later =>
      later.address = earlier.address → ∀ ref, (earlier.outcome settings).1 = .ok ref →
        later.outcome settings = (.ok ref, later.known)) ∧
    ∀ address ref, (attemptAll settings steps .empty).resolved.lookup address = some ref ↔
      ∃ call ∈ attemptAllCalls settings steps .empty,
        call.address = address ∧ (call.outcome settings).1 = .ok ref := by
  have hlog : Log.Free settings .empty _ _ := log_attemptAll steps .empty
  refine ⟨hlog.repeats, fun address ref => ⟨fun hfound => ?_, ?_⟩⟩
  · rcases hlog.found address ref hfound with hempty | hcall
    · exact nomatch hempty
    · exact hcall
  · rintro ⟨call, hcall, rfl, hok⟩
    exact hlog.returned call hcall ref hok

/-- A record whose second property has no type that could be resolved. -/
example :
    let owner : Owner := ⟨"Page.size", .method, "size", "Page", "Page"⟩
    let record : TypeNode := .record "Page.size"
      [⟨"width", "Page.size.width", .primitive "int" "Page.size.width", true, .null⟩,
        ⟨"height", "Page.size.height", .primitive "null" "Page.size.height", true, .null⟩]
    (attemptAllCalls .defaults [.resolve owner [0] (some record), .resolve owner [0] (some record)]
      .empty).map (fun call => (call.address, call.known.resolved.length)) =
    [([0], 0), ([0, 0], 0), ([1, 0], 1), ([0], 1), ([0, 0], 1), ([1, 0], 1)] := rfl

end ApiBindings
