import ApiBindings.Proofs.Resolution.Variants
import ApiBindings.Proofs.Surface.Construction
import ApiBindings.Proofs.Surface.Delegation
/-!
# What stands for an omitted parameter

An overload without an optional parameter passes one literal, in the place of that
parameter, and its own parameters otherwise.  The literal is a number only where a number
without a fraction is taken, and null everywhere else, whether what is taken there is an
object or not.
-/

namespace ApiBindings

/-! ## The literal -/

/-- The placeholder is `0` for an `int` and `null` for every other type. -/
theorem Java.placeholderFor_cases (type : Json) :
    Java.placeholderFor type = "0" ∧ type = .str "int" ∨
      Java.placeholderFor type = "null" ∧ type ≠ .str "int" := by
  unfold Java.placeholderFor
  split
  next hint => exact .inl ⟨rfl, Json.isText_iff.mp hint⟩
  next hother => exact .inr ⟨rfl, fun hint => hother (Json.isText_iff.mpr hint)⟩

namespace Surface

/-- One overload calls another one of its name that takes one parameter more, with a
literal for this parameter: `0` for an `int`, else `null`. -/
structure FillsGap (caller target : Overload) : Prop where
  name : target.name = caller.name
  longer : target.params.length = caller.params.length + 1
  fits : ∃ (args : List Text) (gap : Nat) (taken : Param), caller.delegateArgs = some args ∧
    args.length = target.params.length ∧ target.params[gap]? = some taken ∧
    (args[gap]? = some ("0" : Text) ∧ taken.type = .str "int" ∨
      args[gap]? = some ("null" : Text) ∧ taken.type ≠ .str "int") ∧
    ∀ i arg other, i ≠ gap → args[i]? = some arg → target.params[i]? = some other →
      PassesOwn caller other arg

/-- Within a block among these overloads, one of them delegates to the only one that takes
one parameter more. -/
def DelegatesIn (methods : List Overload) (o : Overload) : Prop :=
  ∃ member returnType params,
    overloadBlock member returnType params <:+: methods ∧
    o ∈ overloadBlock member returnType params ∧
    ∃ target ∈ overloadBlock member returnType params, FillsGap o target ∧
      ∀ other ∈ overloadBlock member returnType params,
        other.params.length = o.params.length + 1 → other = target

/-- Of these overloads, those that delegate do so within their blocks. -/
def Delegated (methods : List Overload) : Prop :=
  ∀ o ∈ methods, o.delegateArgs ≠ none → DelegatesIn methods o

/-! ## A call -/

theorem Calls.fillsGap {caller target : Overload} (hcalls : Calls caller target)
    (hname : target.name = caller.name) : FillsGap caller target where
  name := hname
  longer := hcalls.longer
  fits := by
    obtain ⟨args, gap, hargs, hlength, hgap, hfits⟩ := hcalls.fits
    have harg : args[gap]? = some args[gap] := List.getElem?_eq_getElem hgap
    have htaken : target.params[gap]? = some target.params[gap] :=
      List.getElem?_eq_getElem (hlength ▸ hgap)
    have hliteral := hfits gap _ _ harg htaken
    rw [if_pos rfl] at hliteral
    refine ⟨args, gap, _, hargs, hlength, htaken, ?_, ?_⟩
    · rw [harg, hliteral, Option.some_inj, Option.some_inj]
      exact Java.placeholderFor_cases _
    · intro i arg other hne hat hother
      have hown := hfits i arg other hat hother
      rwa [if_neg hne] at hown

/-! ## Within a block -/

section

variable {member : MemberInfo} {returnType : Json} {params : List BlockParam} {o : Overload}

theorem name_of_mem_overloadBlock (hmem : o ∈ overloadBlock member returnType params) :
    o.name = member.name := by
  rcases mem_overloadBlock hmem with rfl | ⟨_, _, _, -, -, rfl⟩ <;> rfl

theorem exists_target_of_mem_overloadBlock (hmem : o ∈ overloadBlock member returnType params)
    (hdelegates : o.delegateArgs ≠ none) :
    ∃ target ∈ overloadBlock member returnType params, Calls o target := by
  rcases mem_overloadBlock hmem with rfl | ⟨init, omitted, rest, rfl, hoptional, rfl⟩
  · exact absurd rfl hdelegates
  · rcases required_or_exists_optional rest with
      hall | ⟨between, next, later, rfl, hbetween, hnext⟩
    · exact ⟨_, fullOverload_mem_overloadBlock, calls_fullOverload hall⟩
    · have hmem :=
        omitting_mem_overloadBlock member returnType (init ++ omitted :: between) later hnext
      rw [List.append_assoc, List.cons_append] at hmem
      exact ⟨_, hmem, calls_omitting hbetween hnext⟩

theorem delegatesIn_overloadBlock (hmem : o ∈ overloadBlock member returnType params)
    (hdelegates : o.delegateArgs ≠ none) :
    DelegatesIn (overloadBlock member returnType params) o := by
  obtain ⟨target, htarget, hcalls⟩ := exists_target_of_mem_overloadBlock hmem hdelegates
  have hname : target.name = o.name :=
    (name_of_mem_overloadBlock htarget).trans (name_of_mem_overloadBlock hmem).symm
  refine ⟨member, returnType, params, List.infix_rfl, hmem, target, htarget,
    hcalls.fillsGap hname, ?_⟩
  intro other hother hlonger
  exact List.inj_on_of_nodup_map (counts_overloadBlock params) hother htarget
    (hlonger.trans hcalls.longer.symm)

end

/-! ## Among all overloads -/

section

variable {methods others : List Overload} {o : Overload}

theorem DelegatesIn.mono (hdelegates : DelegatesIn methods o) (hpart : methods <:+: others) :
    DelegatesIn others o := by
  obtain ⟨member, returnType, params, hblock, hrest⟩ := hdelegates
  exact ⟨member, returnType, params, hblock.trans hpart, hrest⟩

theorem delegated_nil : Delegated [] := fun _ hmem => nomatch hmem

theorem delegated_of_callsNone (hnone : ∀ o ∈ methods, o.delegateArgs = none) :
    Delegated methods :=
  fun o hmem hdelegates => absurd (hnone o hmem) hdelegates

theorem Delegated.append (hmethods : Delegated methods) (hothers : Delegated others) :
    Delegated (methods ++ others) := by
  intro o hmem hdelegates
  rcases List.mem_append.mp hmem with hleft | hright
  · exact (hmethods o hleft hdelegates).mono (List.prefix_append _ _).isInfix
  · exact (hothers o hright hdelegates).mono (List.suffix_append _ _).isInfix

theorem delegated_of_overloads {member : MemberInfo} {returnType : TypeRef}
    {params : List ResolvedParam} (hderived : overloads member returnType params = .ok methods) :
    Delegated methods := by
  obtain ⟨blocks, hblocks, -, htyped⟩ :=
    exists_blocks member returnType (not_offends_of_overloads hderived)
  obtain rfl : methods = blocks.flatten := Except.ok.inj (hderived.symm.trans hblocks)
  intro o hmem hdelegates
  obtain ⟨block, hblock, ho⟩ := List.mem_flatten.mp hmem
  obtain ⟨position, hat⟩ := List.mem_iff_getElem?.mp hblock
  obtain ⟨own, -, rfl⟩ := htyped position block hat
  exact (delegatesIn_overloadBlock ho hdelegates).mono (List.infix_of_mem_flatten hblock)

theorem delegated_writtenOverloads (member : MemberInfo) (params : List ResolvedParam)
    (signatures : List Json) : Delegated (writtenOverloads member params signatures) := by
  apply delegated_of_callsNone
  induction signatures with
  | nil => exact fun _ hmem => nomatch hmem
  | cons signature rest ih =>
      cases rest with
      | nil => simp [writtenOverloads]
      | cons next rest =>
          rw [writtenOverloads]
          · exact List.forall_mem_cons.mpr ⟨rfl, ih⟩
          · simp

end

/-! ## What is declared -/

open Resolving (Gives outcome)

section

variable {settings : Settings} {interface : ApiBindings.Interface} {address : Address}

theorem gives_declareMethod (member : Member) :
    Gives (declareMethod settings interface address member) Delegated := by
  unfold declareMethod
  refine .bind_any fun signatures => ?_
  cases signatures with
  | suppressed => exact .pure delegated_nil
  | written texts =>
      exact .bind_any fun _ => .bind_any fun params =>
        .pure (delegated_writtenOverloads _ params texts)
  | malformed => exact .bind_any fun _ => .bind_any fun _ => .throw _
  | derived =>
      refine .bind_any fun returnType => .bind_any fun params => ?_
      simp only
      cases hderived : overloads (.of member) returnType params with
      | error failure => exact .throw failure
      | ok methods => exact .pure (delegated_of_overloads hderived)

theorem gives_declareMember (member : Member) :
    Gives (declareMember settings interface address member) fun own => Delegated own.2 := by
  by_cases hevent : member.kind = .event
  · unfold declareMember
    rw [hevent]
    exact .bind_any fun _ => .bind_any fun _ => .pure delegated_nil
  · rw [declareMember_eq hevent]
    exact (gives_declareMethod member).bind fun methods hmethods => .pure hmethods

theorem gives_declareMembers (members : List Member) (position : Nat) :
    Gives (declareMembers settings interface address position members)
      fun declared => Delegated declared.2 := by
  induction members generalizing position with
  | nil => exact .pure delegated_nil
  | cons member rest ih =>
      rw [declareMembers_cons]
      exact (gives_declareMember member).bind fun own hown =>
        (ih (position + 1)).bind fun others hothers => .pure (hown.append hothers)

theorem gives_declareInterface (interface : ApiBindings.Interface) :
    Gives (declareInterface settings address interface)
      fun declared => Delegated declared.methods := by
  unfold declareInterface
  refine .bind_any fun supertypes => ?_
  refine (gives_declareMembers interface.members 0).bind fun members hmembers => ?_
  exact .bind_any fun known => .bind_any fun nested => .pure hmembers

theorem gives_declareInterfaces (interfaces : List ApiBindings.Interface) (position : Nat) :
    Gives (declareInterfaces settings position interfaces)
      fun declared => ∀ i ∈ declared, Delegated i.methods := by
  induction interfaces generalizing position with
  | nil => exact .pure (by simp)
  | cons interface rest ih =>
      rw [declareInterfaces]
      exact (gives_declareInterface interface).bind fun first hfirst =>
        (ih (position + 1)).bind fun others hothers =>
          .pure (List.forall_mem_cons.mpr ⟨hfirst, hothers⟩)

end

end Surface

/-- Every overload of an accepted description that delegates passes one literal, which is
`0` where an `int` is taken and `null` where anything else is, and else its own parameters,
each to the one of its name and type. -/
theorem surface_placeholders {settings : Settings} {language : Text}
    {commandLine : Generation.Invocation} {schema : Json} {surface : Surface}
    (haccepted : Generation.surface settings language commandLine schema = .ok surface) :
    ∀ i ∈ surface.interfaces, ∀ o ∈ i.methods, o.delegateArgs ≠ none →
      Surface.DelegatesIn i.methods o := by
  obtain ⟨interfaces, declared, hdeclared, hinterfaces, -⟩ := Generation.surface_ok haccepted
  obtain ⟨known, hrun, -, -⟩ := Surface.declare_ok hdeclared
  rw [hinterfaces]
  intro i hi
  exact (Surface.gives_declareInterfaces interfaces 0).result .empty declared.interfaces
    (congrArg Prod.fst hrun) i hi

/-! ## Polling with a delay -/

/-- The method `poll`, which may be given a number and a truth value. -/
def pollMethodJson : Json :=
  .obj [("kind", .str "method"), ("name", .str "poll"), ("args", .arr [
    .obj [("name", .str "delay"), ("required", .bool false),
      ("type", .obj [("name", .str "int")])],
    .obj [("name", .str "strict"), ("required", .bool false),
      ("type", .obj [("name", .str "boolean")])]])]

/-- What `poll` passes on where it is given a number only. -/
def pollArgs : List Text := ["delay", "null"]

theorem surface_placeholders_poll :
    ∃ surface, pageSurface [pollMethodJson] = .ok surface ∧
      ∃ i ∈ surface.interfaces, ∃ o ∈ i.methods,
        o.delegateArgs = some pollArgs ∧ Surface.DelegatesIn i.methods o := by
  have hpasses : (pageSurface [pollMethodJson]).toOption.any
      (fun surface => decide (∃ i ∈ surface.interfaces, ∃ o ∈ i.methods,
        o.delegateArgs = some pollArgs)) = true := by decide +kernel
  cases haccepted : pageSurface [pollMethodJson] with
  | error failure =>
      rw [haccepted] at hpasses
      exact nomatch hpasses
  | ok surface =>
      rw [haccepted] at hpasses
      obtain ⟨i, hi, o, ho, hargs⟩ := of_decide_eq_true hpasses
      have hdelegates : o.delegateArgs ≠ none := by
        rw [hargs]
        exact Option.some_ne_none _
      exact ⟨surface, rfl, i, hi, o, ho, hargs,
        surface_placeholders haccepted i hi o ho hdelegates⟩

/-- Null is passed where a truth value is taken, although that is no object. -/
theorem poll_passes_null_for_boolean :
    ∃ surface, pageSurface [pollMethodJson] = .ok surface ∧
      ∃ i ∈ surface.interfaces, ∃ o ∈ i.methods, ∃ target ∈ i.methods,
        i.methods.map (·.params.length) = [1, 0, 2] ∧ target.name = o.name ∧
        target.params.length = o.params.length + 1 ∧ o.delegateArgs = some pollArgs ∧
        target.params.map (·.type.isText "boolean") = [false, true] := by
  have hpasses : (pageSurface [pollMethodJson]).toOption.any
      (fun surface => decide (∃ i ∈ surface.interfaces, ∃ o ∈ i.methods, ∃ target ∈ i.methods,
        i.methods.map (·.params.length) = [1, 0, 2] ∧ target.name = o.name ∧
        target.params.length = o.params.length + 1 ∧ o.delegateArgs = some pollArgs ∧
        target.params.map (·.type.isText "boolean") = [false, true])) = true := by
    decide +kernel
  cases haccepted : pageSurface [pollMethodJson] with
  | error failure =>
      rw [haccepted] at hpasses
      exact nomatch hpasses
  | ok surface =>
      rw [haccepted] at hpasses
      exact ⟨surface, rfl, of_decide_eq_true hpasses⟩

end ApiBindings
