import ApiBindings.Proofs.Surface.OverloadBlocks
import Mathlib.Logic.Relation
/-!
# How default overloads delegate

An overload without an optional parameter calls the overload of its block that is longer
by this parameter.  The omitted parameter may stand before required ones, so the arguments
are not a prefix of what is taken there; they still fit one by one.  Each call takes one
parameter more than the caller has, so every chain of calls ends at the overload that
takes all of them.
-/

namespace ApiBindings
namespace Surface

/-- An overload passes on one of its own parameters, of this name and type. -/
def PassesOwn (caller : Overload) (taken : Param) (arg : Text) : Prop :=
  ∃ own ∈ caller.params, own.name = taken.name ∧ own.type = taken.type ∧ arg = own.name

/-- The arguments of one overload fit the parameters of another one: in one position stands
the placeholder for the type that is taken there, in all others a parameter of the caller
that is taken there by its name and type. -/
structure Calls (caller target : Overload) : Prop where
  longer : target.params.length = caller.params.length + 1
  fits : ∃ args gap, caller.delegateArgs = some args ∧ args.length = target.params.length ∧
    gap < args.length ∧
    ∀ i arg taken, args[i]? = some arg → target.params[i]? = some taken →
      if i = gap then arg = Java.placeholderFor taken.type else PassesOwn caller taken arg

/-- An overload takes all parameters and calls no other one. -/
structure TakesAll (block : Nat) (params : List ResolvedParam) (o : Overload) : Prop where
  params : List.Forall₂ (DeclaredIn block) params o.params
  callsNone : o.delegateArgs = none

/-- An overload omits this optional parameter and the optional ones after it. -/
structure Omits (block : Nat) (before : List ResolvedParam) (omitted : ResolvedParam)
    (after : List ResolvedParam) (o : Overload) : Prop where
  optional : omitted.required = false
  params : List.Forall₂ (DeclaredIn block) (before ++ after.filter (·.required)) o.params

/-- The next longer overload: it omits the next optional parameter, or takes all parameters
if there is none. -/
inductive NextLonger (block : Nat) (before : List ResolvedParam) (omitted : ResolvedParam) :
    List ResolvedParam → Overload → Prop where
  | omitsNext {between later : List ResolvedParam} {next : ResolvedParam} {o : Overload}
      (hrequired : ∀ p ∈ between, p.required = true)
      (homits : Omits block (before ++ omitted :: between) next later o) :
      NextLonger block before omitted (between ++ next :: later) o
  | takesAll {after : List ResolvedParam} {o : Overload}
      (hrequired : ∀ p ∈ after, p.required = true)
      (hall : TakesAll block (before ++ omitted :: after) o) :
      NextLonger block before omitted after o

/-- One overload of a block calls another one. -/
def CallsIn (overloads : List Overload) (caller target : Overload) : Prop :=
  caller ∈ overloads ∧ target ∈ overloads ∧ Calls caller target

/-- The overloads of a block delegate to each other, up to the one that takes all
parameters. -/
structure Delegating (block : Nat) (params : List ResolvedParam) (overloads : List Overload) :
    Prop where
  counts : (overloads.map fun o => o.params.length).Nodup
  omits : ∀ before omitted after, params = before ++ omitted :: after →
    omitted.required = false → ∃ o ∈ overloads, Omits block before omitted after o
  calls : ∀ o ∈ overloads, TakesAll block params o ∨
    ∃ before omitted after, params = before ++ omitted :: after ∧
      Omits block before omitted after o ∧
      ∃ target ∈ overloads, NextLonger block before omitted after target ∧ Calls o target
  ends : ∃ last ∈ overloads, TakesAll block params last ∧
    ∀ o ∈ overloads, Relation.ReflTransGen (CallsIn overloads) o last

/-! ## A call -/

section

variable {caller target : Overload}

/-- A parameter of the caller fits where the same one is taken. -/
theorem passesOwn_of_mem {p : Param} (hmem : p ∈ caller.params) : PassesOwn caller p p.name :=
  ⟨p, hmem, rfl, rfl, rfl⟩

theorem Calls.of_gap (before : List Param) (gap : Param) (after : List Param)
    (htarget : target.params = before ++ gap :: after)
    (hcaller : caller.params = before ++ after)
    (hargs : caller.delegateArgs = some (before.map (·.name) ++
      Java.placeholderFor gap.type :: after.map (·.name))) : Calls caller target where
  longer := by
    rw [htarget, hcaller]
    simp only [List.length_append, List.length_cons]
    omega
  fits := by
    refine ⟨_, before.length, hargs, ?_, ?_, ?_⟩
    · simp [htarget]
    · simp
    · intro i arg taken harg htaken
      rw [htarget] at htaken
      by_cases hbefore : i < before.length
      · rw [List.getElem?_append_left (by simpa using hbefore), List.getElem?_map] at harg
        rw [List.getElem?_append_left hbefore] at htaken
        rw [htaken] at harg
        obtain rfl : taken.name = arg := Option.some.inj harg
        rw [if_neg (Nat.ne_of_lt hbefore)]
        apply passesOwn_of_mem
        rw [hcaller]
        exact List.mem_append_left _ (List.mem_of_getElem? htaken)
      · have hle : before.length ≤ i := Nat.le_of_not_lt hbefore
        rw [List.getElem?_append_right (by simpa using hle), List.length_map] at harg
        rw [List.getElem?_append_right hle] at htaken
        cases hdistance : i - before.length with
        | zero =>
            rw [hdistance] at harg htaken
            obtain rfl : gap = taken := Option.some.inj htaken
            obtain rfl : Java.placeholderFor gap.type = arg := Option.some.inj harg
            have hgap : i = before.length := by omega
            rw [if_pos hgap]
        | succ k =>
            rw [hdistance, List.getElem?_cons_succ] at harg htaken
            rw [List.getElem?_map, htaken] at harg
            obtain rfl : taken.name = arg := Option.some.inj harg
            have hne : i ≠ before.length := by omega
            rw [if_neg hne]
            apply passesOwn_of_mem
            rw [hcaller]
            exact List.mem_append_right _ (List.mem_of_getElem? htaken)

end

/-! ## The overloads of a block -/

section

variable {member : MemberInfo} {returnType : Json} {init rest own : List BlockParam}
  {omitted : BlockParam} {block : Nat} {params : List ResolvedParam}

/-- Either all of these parameters are required, or there is a first one that is not. -/
theorem required_or_exists_optional (rest : List BlockParam) :
    (∀ p ∈ rest, p.required = true) ∨
      ∃ between next later, rest = between ++ next :: later ∧
        (∀ p ∈ between, p.required = true) ∧ next.required = false := by
  induction rest with
  | nil => exact .inl fun _ hmem => nomatch hmem
  | cons p rest ih =>
      cases hrequired : p.required with
      | false => exact .inr ⟨[], p, rest, rfl, by simp, hrequired⟩
      | true =>
          rcases ih with hall | ⟨between, next, later, rfl, hbetween, hnext⟩
          · exact .inl (List.forall_mem_cons.mpr ⟨hrequired, hall⟩)
          · exact .inr ⟨p :: between, next, later, rfl,
              List.forall_mem_cons.mpr ⟨hrequired, hbetween⟩, hnext⟩

theorem filter_required_eq_self (hrequired : ∀ p ∈ rest, p.required = true) :
    rest.filter (·.required) = rest :=
  List.filter_eq_self.mpr hrequired

theorem calls_fullOverload (hrequired : ∀ p ∈ rest, p.required = true) :
    Calls (omitting member returnType init omitted rest)
      (fullOverload member returnType (init ++ omitted :: rest)) := by
  apply Calls.of_gap (init.map BlockParam.declaration) omitted.declaration
    (rest.map BlockParam.declaration)
  · simp [fullOverload]
  · simp [omitting, filter_required_eq_self hrequired]
  · simp [omitting, filter_required_eq_self hrequired, BlockParam.declaration,
      Function.comp_def]

/-- What is required between two optional parameters is passed on, and the overload without
the second one takes it there. -/
theorem calls_omitting {between later : List BlockParam} {next : BlockParam}
    (hbetween : ∀ p ∈ between, p.required = true) (hnext : next.required = false) :
    Calls (omitting member returnType init omitted (between ++ next :: later))
      (omitting member returnType (init ++ omitted :: between) next later) := by
  have hkept : (between ++ next :: later).filter (·.required) =
      between ++ later.filter (·.required) := by
    simp [filter_required_eq_self hbetween, hnext]
  apply Calls.of_gap (init.map BlockParam.declaration) omitted.declaration
    ((between ++ later.filter (·.required)).map BlockParam.declaration)
  · simp [omitting]
  · simp only [omitting, hkept, List.map_append]
  · simp [omitting, hkept, BlockParam.declaration, Function.comp_def]

theorem omitting_mem_overloadBlock (member : MemberInfo) (returnType : Json)
    (init rest : List BlockParam) (hoptional : omitted.required = false) :
    omitting member returnType init omitted rest ∈
      overloadBlock member returnType (init ++ omitted :: rest) := by
  apply List.mem_append_left
  exact mem_defaultOverloads.mpr ⟨init, omitted, rest, rfl, hoptional, rfl⟩

theorem fullOverload_mem_overloadBlock :
    fullOverload member returnType own ∈ overloadBlock member returnType own :=
  List.mem_append_right _ (List.mem_singleton.mpr rfl)

theorem mem_overloadBlock {o : Overload} (hmem : o ∈ overloadBlock member returnType own) :
    o = fullOverload member returnType own ∨
      ∃ init omitted rest, own = init ++ omitted :: rest ∧ omitted.required = false ∧
        o = omitting member returnType init omitted rest := by
  rcases List.mem_append.mp hmem with hdefault | hfull
  · exact .inr (mem_defaultOverloads.mp hdefault)
  · exact .inl (List.mem_singleton.mp hfull)

/-- From every default overload calls lead to the one that takes all parameters: the
optional parameters after the omitted one get fewer with each call. -/
theorem reaches_fullOverload (hoptional : omitted.required = false) :
    Relation.ReflTransGen (CallsIn (overloadBlock member returnType (init ++ omitted :: rest)))
      (omitting member returnType init omitted rest)
      (fullOverload member returnType (init ++ omitted :: rest)) := by
  induction hlength : rest.length using Nat.strong_induction_on
    generalizing init omitted rest with
  | _ n ih =>
    have hmem := omitting_mem_overloadBlock member returnType init rest hoptional
    rcases required_or_exists_optional rest with
      hall | ⟨between, next, later, rfl, hbetween, hnext⟩
    · apply Relation.ReflTransGen.single
      exact ⟨hmem, fullOverload_mem_overloadBlock, calls_fullOverload hall⟩
    · have hsplit : init ++ omitted :: (between ++ next :: later) =
          (init ++ omitted :: between) ++ next :: later := by simp
      have hshorter : later.length < n := by
        rw [← hlength, List.length_append, List.length_cons]
        omega
      have htarget :=
        omitting_mem_overloadBlock member returnType (init ++ omitted :: between) later hnext
      have hrest : Relation.ReflTransGen
          (CallsIn (overloadBlock member returnType ((init ++ omitted :: between) ++ next :: later)))
          (omitting member returnType (init ++ omitted :: between) next later)
          (fullOverload member returnType ((init ++ omitted :: between) ++ next :: later)) :=
        ih later.length hshorter hnext rfl
      rw [← hsplit] at hrest htarget
      exact .head ⟨hmem, htarget, calls_omitting hbetween hnext⟩ hrest

theorem counts_overloadBlock (own : List BlockParam) :
    ((overloadBlock member returnType own).map fun o => o.params.length).Nodup := by
  have hlength : ∀ o : Overload, o.parameterTypes.length = o.params.length := fun o =>
    List.length_map _
  rw [overloadBlock, List.map_append, List.nodup_append]
  refine ⟨?_, by simp, ?_⟩
  · rw [List.Nodup, List.pairwise_map]
    refine (defaultOverloads_length [] own).imp ?_
    intro a b hlonger heq
    rw [hlength, hlength, heq] at hlonger
    exact Nat.lt_irrefl _ hlonger
  · intro count hcount full hfull heq
    rcases List.mem_map.mp hcount with ⟨o, ho, rfl⟩
    obtain ⟨init, omitted, rest, rfl, -, rfl⟩ := mem_defaultOverloads.mp ho
    have hrest := length_requiredOnes_le rest
    simp [omitting, fullOverload] at hfull heq
    unfold requiredOnes at hrest
    omega

/-! ## What is typed in a block -/

theorem required_of_typedIn {between : List ResolvedParam}
    (htyped : List.Forall₂ (TypedIn block) between own)
    (hrequired : ∀ q ∈ own, q.required = true) : ∀ p ∈ between, p.required = true := by
  induction htyped with
  | nil => exact fun _ hmem => nomatch hmem
  | cons hfirst _ ih =>
      obtain ⟨hhead, htail⟩ := List.forall_mem_cons.mp hrequired
      exact List.forall_mem_cons.mpr ⟨hfirst.required.symm.trans hhead, ih htail⟩

/-- Where the parameters are split, the block is. -/
theorem exists_split_of_params {before after : List ResolvedParam} {p : ResolvedParam}
    (htyped : List.Forall₂ (TypedIn block) (before ++ p :: after) own) :
    ∃ init q rest, own = init ++ q :: rest ∧ List.Forall₂ (TypedIn block) before init ∧
      TypedIn block p q ∧ List.Forall₂ (TypedIn block) after rest := by
  induction before generalizing own with
  | nil =>
      obtain ⟨q, rest, hp, hrest, rfl⟩ := List.forall₂_cons_left_iff.mp htyped
      exact ⟨[], q, rest, rfl, .nil, hp, hrest⟩
  | cons first before ih =>
      obtain ⟨typed, own, hfirst, hown, rfl⟩ := List.forall₂_cons_left_iff.mp htyped
      obtain ⟨init, q, rest, rfl, hinit, hp, hrest⟩ := ih hown
      exact ⟨typed :: init, q, rest, rfl, .cons hfirst hinit, hp, hrest⟩

theorem takesAll_fullOverload (htyped : List.Forall₂ (TypedIn block) params own) :
    TakesAll block params (fullOverload member returnType own) where
  params := declaredIn_of_typedIn htyped
  callsNone := rfl

theorem omits_omitting {before after : List ResolvedParam} {p : ResolvedParam}
    (hinit : List.Forall₂ (TypedIn block) before init) (hp : TypedIn block p omitted)
    (hrest : List.Forall₂ (TypedIn block) after rest) (hoptional : omitted.required = false) :
    Omits block before p after (omitting member returnType init omitted rest) where
  optional := hp.required.symm.trans hoptional
  params := declaredIn_omitting omitted hinit hrest

theorem exists_nextLonger {before after : List ResolvedParam} {p : ResolvedParam}
    (hinit : List.Forall₂ (TypedIn block) before init) (hp : TypedIn block p omitted)
    (hrest : List.Forall₂ (TypedIn block) after rest) :
    ∃ target ∈ overloadBlock member returnType (init ++ omitted :: rest),
      NextLonger block before p after target ∧
        Calls (omitting member returnType init omitted rest) target := by
  rcases required_or_exists_optional rest with
    hall | ⟨between, next, later, rfl, hbetween, hnext⟩
  · refine ⟨_, fullOverload_mem_overloadBlock, ?_, calls_fullOverload hall⟩
    apply NextLonger.takesAll (required_of_typedIn hrest hall)
    exact takesAll_fullOverload (List.rel_append hinit (.cons hp hrest))
  · obtain ⟨middle, q, last, rfl, hmiddle, hq, hlast⟩ := exists_split_of_typedIn hrest
    have hmem :=
      omitting_mem_overloadBlock member returnType (init ++ omitted :: between) later hnext
    rw [List.append_assoc, List.cons_append] at hmem
    refine ⟨_, hmem, ?_, calls_omitting hbetween hnext⟩
    apply NextLonger.omitsNext (required_of_typedIn hmiddle hbetween)
    exact omits_omitting (List.rel_append hinit (.cons hp hmiddle)) hq hlast hnext

/-- The overloads of a block delegate to each other. -/
theorem delegating_overloadBlock (htyped : List.Forall₂ (TypedIn block) params own) :
    Delegating block params (overloadBlock member returnType own) where
  counts := counts_overloadBlock own
  omits := by
    rintro before p after rfl hoptional
    obtain ⟨init, omitted, rest, rfl, hinit, hp, hrest⟩ := exists_split_of_params htyped
    have homitted : omitted.required = false := hp.required.trans hoptional
    exact ⟨_, omitting_mem_overloadBlock _ _ _ _ homitted, omits_omitting hinit hp hrest homitted⟩
  calls := by
    intro o hmem
    rcases mem_overloadBlock hmem with rfl | ⟨init, omitted, rest, rfl, hoptional, rfl⟩
    · exact .inl (takesAll_fullOverload htyped)
    · obtain ⟨before, p, after, hsplit, hinit, hp, hrest⟩ := exists_split_of_typedIn htyped
      exact .inr ⟨before, p, after, hsplit, omits_omitting hinit hp hrest hoptional,
        exists_nextLonger hinit hp hrest⟩
  ends := by
    refine ⟨_, fullOverload_mem_overloadBlock, takesAll_fullOverload htyped, ?_⟩
    intro o hmem
    rcases mem_overloadBlock hmem with rfl | ⟨init, omitted, rest, rfl, hoptional, rfl⟩
    · exact .refl
    · exact reaches_fullOverload hoptional

end

/-! ## The overloads of a method -/

/-- The parameters of a method with overloads do not offend. -/
theorem not_offends_of_overloads {member : MemberInfo} {returnType : TypeRef}
    {params : List ResolvedParam} {derived : List Overload}
    (hderived : overloads member returnType params = .ok derived) (index : Nat) :
    ¬Offends (params.map ResolvedParam.count?) index := by
  intro hoffends
  obtain ⟨first, hfirst⟩ := exists_offendsFirst ⟨index, hoffends⟩
  have hbound : first < params.length := by simpa using hfirst.1.lt_length
  have herror := overloads_error member returnType (List.getElem?_eq_getElem hbound) hfirst
  exact nomatch hderived.symm.trans herror

/-- In each block of the overloads of a method the calls lead from every overload to the one
that takes all parameters, each of them to the overload that takes one parameter more. -/
theorem overloads_delegating {member : MemberInfo} {returnType : TypeRef}
    {params : List ResolvedParam} {derived : List Overload}
    (hderived : overloads member returnType params = .ok derived) :
    ∃ blocks : List (List Overload), derived = blocks.flatten ∧
      blocks.length = max 1 (drivingCount (params.map ResolvedParam.count?)) ∧
      ∀ block overloads, blocks[block]? = some overloads →
        Delegating block params overloads := by
  obtain ⟨blocks, hblocks, hlength, htyped⟩ :=
    exists_blocks member returnType (not_offends_of_overloads hderived)
  refine ⟨blocks, Except.ok.inj (hderived.symm.trans hblocks), hlength, ?_⟩
  intro block overloads hat
  obtain ⟨own, hown, rfl⟩ := htyped block overloads hat
  exact delegating_overloadBlock hown

/-- An optional number, then a text or a decimal number, then an optional text. -/
def waitingParams : List ResolvedParam :=
  [{ name := "timeout", path := "Page.wait.timeout", required := false, comment := .str []
     type := .builtin "int" },
   { name := "value", path := "Page.wait.value", required := true, comment := .str []
     type := .union "" [.builtin "String", .builtin "double"] },
   { name := "note", path := "Page.wait.note", required := false, comment := .str []
     type := .builtin "String" }]

def waiting : MemberInfo where
  name := "wait"
  comment := .str []
  returnComment := .null

/-- What the overloads of each block pass on. -/
def waitingArgs : List (Option (List Text)) :=
  [some ["timeout", "value", "null"], some ["0", "value"], none]

theorem overloads_delegating_waiting :
    ∃ derived, overloads waiting (.builtin "void") waitingParams = .ok derived ∧
      derived.map (·.delegateArgs) = waitingArgs ++ waitingArgs ∧
      ∃ blocks : List (List Overload), derived = blocks.flatten ∧
        blocks.length = max 1 (drivingCount (waitingParams.map ResolvedParam.count?)) ∧
        ∀ block overloads, blocks[block]? = some overloads →
          Delegating block waitingParams overloads := by
  have hargs : (overloads waiting (.builtin "void") waitingParams).toOption.map
      (fun derived => derived.map (·.delegateArgs)) = some (waitingArgs ++ waitingArgs) := by
    decide +kernel
  cases hderived : overloads waiting (.builtin "void") waitingParams with
  | error failure =>
      rw [hderived] at hargs
      cases hargs
  | ok derived =>
      rw [hderived] at hargs
      exact ⟨derived, rfl, Option.some.inj hargs, overloads_delegating hderived⟩

end Surface
end ApiBindings
