import ApiBindings.Proofs.Surface.Run
import Mathlib.Data.List.Nodup
/-!
# When overloads clash

Java tells the overloads of a method apart by the types of their parameters.
The overloads of one block always differ, because each of them is longer than
those before it.  Those of two blocks can only be told apart by the driving
parameter, which takes that it is never omitted and that its variants are
spelled differently; nothing checks either of these.
-/

namespace ApiBindings
namespace Surface

/-- The types that an overload is told apart by, as they are spelled. -/
def Overload.parameterTypes (o : Overload) : List Text :=
  o.params.map fun p => p.type.display

/-- The spellings of the types of parameters. -/
def spellings (params : List BlockParam) : List Text :=
  params.map fun p => p.type.display

/-- The parameters that are never omitted. -/
def requiredOnes (params : List BlockParam) : List BlockParam :=
  params.filter (·.required)

/-! ## One block -/

section
variable {member : MemberInfo} {returnType : Json}

theorem parameterTypes_full (params : List BlockParam) :
    (fullOverload member returnType params).parameterTypes = spellings params := by
  simp [Overload.parameterTypes, fullOverload, spellings, BlockParam.declaration]

theorem parameterTypes_omitting (before : List BlockParam) (omitted : BlockParam)
    (after : List BlockParam) :
    (omitting member returnType before omitted after).parameterTypes =
      spellings before ++ spellings (requiredOnes after) := by
  simp [Overload.parameterTypes, omitting, spellings, requiredOnes,
    BlockParam.declaration, Function.comp_def]

/-- Each overload with a default omits one optional parameter, and the optional
ones after it. -/
theorem mem_defaultOverloads {o : Overload} {before params : List BlockParam} :
    o ∈ defaultOverloads member returnType before params ↔
      ∃ init omitted rest, params = init ++ omitted :: rest ∧
        omitted.required = false ∧
        o = omitting member returnType (before ++ init) omitted rest := by
  induction params generalizing before with
  | nil => simp [defaultOverloads]
  | cons p after ih =>
      rw [defaultOverloads, List.mem_append, ih]
      constructor
      · rintro (⟨init, omitted, rest, rfl, hoptional, rfl⟩ | hfirst)
        · exact ⟨p :: init, omitted, rest, rfl, hoptional, by simp⟩
        · cases hrequired : p.required with
          | true => simp [hrequired] at hfirst
          | false =>
              have heq : o = omitting member returnType before p after := by
                simpa [hrequired] using hfirst
              exact ⟨[], p, after, rfl, hrequired, by simpa using heq⟩
      · rintro ⟨init, omitted, rest, hsplit, hoptional, rfl⟩
        cases init with
        | nil =>
            obtain ⟨rfl, rfl⟩ : p = omitted ∧ after = rest := by simpa using hsplit
            exact .inr (by simp [hoptional])
        | cons q init =>
            obtain ⟨rfl, rfl⟩ : p = q ∧ after = init ++ omitted :: rest := by
              simpa using hsplit
            exact .inl ⟨init, omitted, rest, rfl, hoptional, by simp⟩

theorem mem_parameterTypes_overloadBlock {types : List Text}
    {params : List BlockParam} :
    types ∈ (overloadBlock member returnType params).map Overload.parameterTypes ↔
      types = spellings params ∨
      ∃ init omitted rest, params = init ++ omitted :: rest ∧
        omitted.required = false ∧
        types = spellings init ++ spellings (requiredOnes rest) := by
  simp only [overloadBlock, List.map_append, List.mem_append, List.mem_map,
    List.mem_singleton, mem_defaultOverloads, List.nil_append]
  constructor
  · rintro (⟨o, ⟨init, omitted, rest, hsplit, hoptional, rfl⟩, rfl⟩ | ⟨o, rfl, rfl⟩)
    · exact .inr ⟨init, omitted, rest, hsplit, hoptional, parameterTypes_omitting ..⟩
    · exact .inl (parameterTypes_full _)
  · rintro (rfl | ⟨init, omitted, rest, hsplit, hoptional, rfl⟩)
    · exact .inr ⟨_, rfl, parameterTypes_full _⟩
    · exact .inl ⟨_, ⟨init, omitted, rest, hsplit, hoptional, rfl⟩,
        parameterTypes_omitting ..⟩

theorem length_requiredOnes_le (params : List BlockParam) :
    (requiredOnes params).length ≤ params.length :=
  List.length_filter_le _ _

theorem length_requiredOnes_split (init rest : List BlockParam)
    {omitted : BlockParam} (hoptional : omitted.required = false) :
    (requiredOnes (init ++ omitted :: rest)).length =
      (requiredOnes init).length + (requiredOnes rest).length := by
  simp [requiredOnes, hoptional]

/-- The later an omitted parameter stands, the longer is the overload. -/
theorem defaultOverloads_length (before params : List BlockParam) :
    (defaultOverloads member returnType before params).Pairwise fun a b =>
      b.parameterTypes.length < a.parameterTypes.length := by
  induction params generalizing before with
  | nil => exact List.Pairwise.nil
  | cons p after ih =>
      rw [defaultOverloads, List.pairwise_append]
      refine ⟨ih _, ?_, ?_⟩
      · cases p.required <;> simp
      · intro a ha b hb
        obtain ⟨init, omitted, rest, rfl, hoptional, rfl⟩ := mem_defaultOverloads.mp ha
        have heq : b = omitting member returnType before p (init ++ omitted :: rest) := by
          cases hrequired : p.required <;> simp_all
        subst b
        have hinit := length_requiredOnes_le init
        have hsplit := length_requiredOnes_split init rest hoptional
        simp only [parameterTypes_omitting, spellings, List.length_append,
          List.length_map, List.length_cons, List.length_nil]
        omega

theorem overloadBlock_nodup (params : List BlockParam) :
    ((overloadBlock member returnType params).map Overload.parameterTypes).Nodup := by
  rw [overloadBlock, List.map_append, List.nodup_append]
  refine ⟨?_, by simp, ?_⟩
  · rw [List.Nodup, List.pairwise_map]
    refine (defaultOverloads_length [] params).imp ?_
    intro a b hlonger heq
    rw [heq] at hlonger
    exact Nat.lt_irrefl _ hlonger
  · intro types htypes full hfull heq
    obtain ⟨o, ho, rfl⟩ := List.mem_map.mp htypes
    obtain ⟨init, omitted, rest, rfl, -, rfl⟩ := mem_defaultOverloads.mp ho
    have hfull' : full = spellings (init ++ omitted :: rest) := by
      simpa [parameterTypes_full] using hfull
    have hlength := congrArg List.length (heq.trans hfull')
    have hrest := length_requiredOnes_le rest
    simp only [parameterTypes_omitting, spellings, List.nil_append, List.length_append,
      List.length_map, List.length_cons] at hlength
    omega

end

/-! ## Two blocks -/

/-- The driving parameter in the block of one of its variants. -/
def ResolvedParam.chosen (p : ResolvedParam) (variant : TypeRef) : BlockParam where
  name := p.name
  type := variant.name
  required := p.required
  comment := p.comment

/-- Where a required parameter stands in the overloads of a block: if one
before it is omitted, all after it are, too. -/
theorem parameterTypes_around {member : MemberInfo} {returnType : Json}
    {before after : List BlockParam} {p : BlockParam} (hrequired : p.required = true)
    {types : List Text}
    (htypes : types ∈
      (overloadBlock member returnType (before ++ p :: after)).map
        Overload.parameterTypes) :
    ∃ left right, types = left ++ p.type.display :: right ∧
      ((left.length < before.length ∧ right.length = (requiredOnes after).length) ∨
        (left.length = before.length ∧ (requiredOnes after).length ≤ right.length)) := by
  rcases mem_parameterTypes_overloadBlock.mp htypes with
    rfl | ⟨init, omitted, rest, hsplit, hoptional, rfl⟩
  · refine ⟨spellings before, spellings after, by simp [spellings], .inr ⟨?_, ?_⟩⟩
    · simp [spellings]
    · simpa [spellings] using length_requiredOnes_le after
  · rcases List.append_eq_append_iff.mp hsplit with
      ⟨middle, rfl, hmiddle⟩ | ⟨middle, rfl, hmiddle⟩
    · cases middle with
      | nil =>
          obtain ⟨rfl, rfl⟩ : p = omitted ∧ after = rest := by simpa using hmiddle
          simp [hrequired] at hoptional
      | cons q middle =>
          obtain ⟨rfl, rfl⟩ : p = q ∧ after = middle ++ omitted :: rest := by
            simpa using hmiddle
          refine ⟨spellings before, spellings middle ++ spellings (requiredOnes rest),
            by simp [spellings], .inr ⟨by simp [spellings], ?_⟩⟩
          have hle := length_requiredOnes_le middle
          rw [length_requiredOnes_split middle rest hoptional]
          simp only [spellings, List.length_append, List.length_map]
          omega
    · cases middle with
      | nil =>
          obtain ⟨rfl, rfl⟩ : omitted = p ∧ rest = after := by simpa using hmiddle
          simp [hrequired] at hoptional
      | cons q middle =>
          obtain ⟨rfl, rfl⟩ : omitted = q ∧ rest = middle ++ p :: after := by
            simpa using hmiddle
          refine ⟨spellings init ++ spellings (requiredOnes middle),
            spellings (requiredOnes after), ?_, .inl ⟨?_, by simp [spellings]⟩⟩
          · simp [spellings, requiredOnes, hrequired]
          · have hle := length_requiredOnes_le middle
            simp only [spellings, List.length_append, List.length_map, List.length_cons]
            omega

/-- Two blocks have no overload in common exactly if the driving parameter is
required and its variants in them are spelled differently. -/
theorem overloadBlocks_disjoint_iff {member : MemberInfo} {returnType : Json}
    {before after : List BlockParam} {p : ResolvedParam} {v w : TypeRef} :
    List.Disjoint
        ((overloadBlock member returnType (before ++ p.chosen v :: after)).map
          Overload.parameterTypes)
        ((overloadBlock member returnType (before ++ p.chosen w :: after)).map
          Overload.parameterTypes) ↔
      p.required = true ∧ v.name.display ≠ w.name.display := by
  constructor
  · intro hdisjoint
    constructor
    · cases hrequired : p.required with
      | true => rfl
      | false =>
          -- the overload without the driving parameter is in both blocks
          have hcommon : ∀ variant,
              spellings before ++ spellings (requiredOnes after) ∈
                (overloadBlock member returnType
                  (before ++ p.chosen variant :: after)).map
                    Overload.parameterTypes := by
            intro variant
            exact mem_parameterTypes_overloadBlock.mpr
              (.inr ⟨before, p.chosen variant, after, rfl, hrequired, rfl⟩)
          exact absurd (hcommon w) (hdisjoint (hcommon v))
    · intro hsame
      have hfull : ∀ variant,
          spellings (before ++ p.chosen variant :: after) ∈
            (overloadBlock member returnType
              (before ++ p.chosen variant :: after)).map Overload.parameterTypes :=
        fun _ => mem_parameterTypes_overloadBlock.mpr (.inl rfl)
      have heq : spellings (before ++ p.chosen v :: after) =
          spellings (before ++ p.chosen w :: after) := by
        simp [spellings, ResolvedParam.chosen, hsame]
      exact hdisjoint (hfull v) (heq ▸ hfull w)
  · rintro ⟨hrequired, hdifferent⟩ types hv hw
    obtain ⟨left, right, rfl, hplace⟩ :=
      parameterTypes_around (p := p.chosen v) hrequired hv
    obtain ⟨left', right', heq, hplace'⟩ :=
      parameterTypes_around (p := p.chosen w) hrequired hw
    have hlength := congrArg List.length heq
    simp only [List.length_append, List.length_cons] at hlength
    have hleft : left.length = left'.length := by omega
    have hrest := (List.append_inj heq hleft).2
    exact hdifferent (List.cons.inj hrest).1

/-! ## The blocks of a method -/

/-- Behind the driving parameter nothing depends on the choice. -/
theorem blockParams_behind {driver position : Nat} {v w : TypeRef}
    (hbehind : driver < position) (params : List ResolvedParam) :
    blockParams (some (driver, v)) position params =
      blockParams (some (driver, w)) position params := by
  induction params generalizing position with
  | nil => rfl
  | cons p rest ih =>
      have hne : driver ≠ position := Nat.ne_of_lt hbehind
      simp only [blockParams, if_neg hne, ih (Nat.lt_succ_of_lt hbehind)]

/-- The blocks of the variants of the driving parameter have all other
parameters in common. -/
theorem blockParams_driven {params : List ResolvedParam} {index position : Nat}
    {p : ResolvedParam} {v : TypeRef} {block : List BlockParam}
    (hdriver : params[index]? = some p) (hunion : p.type.isUnion = true)
    (hblock : blockParams (some (position + index, v)) position params = .ok block) :
    ∃ before after, ∀ w,
      blockParams (some (position + index, w)) position params =
        .ok (before ++ p.chosen w :: after) := by
  induction params generalizing index position block with
  | nil => simp at hdriver
  | cons q rest ih =>
      cases index with
      | zero =>
          obtain rfl : q = p := by simpa using hdriver
          cases hrest : blockParams (some (position, v)) (position + 1) rest with
          | error failure =>
              simp [blockParams, blockType, hunion, hrest, bind, Except.bind] at hblock
          | ok after =>
              refine ⟨[], after, fun w => ?_⟩
              rw [blockParams_behind (w := w) (Nat.lt_succ_self _)] at hrest
              simp [blockParams, blockType, hunion, hrest, bind, Except.bind, pure,
                Except.pure, ResolvedParam.chosen]
      | succ index =>
          have hrest : rest[index]? = some p := by simpa using hdriver
          have hne : position + (index + 1) ≠ position := by omega
          have hnext : position + (index + 1) = position + 1 + index := by omega
          simp only [blockParams, if_neg hne] at hblock ⊢
          cases htype : blockType none q with
          | error failure => simp [htype, bind, Except.bind] at hblock
          | ok type =>
              cases hothers : blockParams (some (position + (index + 1), v))
                  (position + 1) rest with
              | error failure => simp [htype, hothers, bind, Except.bind] at hblock
              | ok others =>
                  rw [hnext] at hothers
                  obtain ⟨before, after, hall⟩ := ih hrest hothers
                  refine ⟨⟨q.name, type, q.required, q.comment⟩ :: before, after,
                    fun w => ?_⟩
                  rw [hnext, hall w]
                  rfl

theorem blocksFor_driven {member : MemberInfo} {returnType : Json}
    {params : List ResolvedParam} {p : ResolvedParam} {driver : Nat}
    {before after : List BlockParam}
    (hall : ∀ variant, blockParams (some (driver, variant)) 0 params =
      .ok (before ++ p.chosen variant :: after)) (variants : List TypeRef) :
    blocksFor member returnType params (variants.map fun v => some (driver, v)) =
      .ok (variants.map fun v =>
        overloadBlock member returnType (before ++ p.chosen v :: after)) := by
  induction variants with
  | nil => rfl
  | cons v rest ih =>
      simp only [List.map_cons, blocksFor, hall, ih]
      rfl

theorem drivingParam?_some {params : List ResolvedParam} {driver : Nat}
    (hdriver : drivingParam? params = some driver) :
    ∃ p, params[driver]? = some p ∧ p.type.isUnion = true ∧
      1 < p.type.variants.length := by
  obtain ⟨hbound, hdrives, -⟩ := List.findIdx?_eq_some_iff_getElem.mp hdriver
  refine ⟨params[driver], List.getElem?_eq_getElem hbound, ?_⟩
  simpa using hdrives

theorem overloads_undriven {member : MemberInfo} {returnType : TypeRef}
    {params : List ResolvedParam} {derived : List Overload}
    (hnone : drivingParam? params = none)
    (hderived : overloads member returnType params = .ok derived) :
    ∃ block, derived = overloadBlock member returnType.name block := by
  simp only [overloads, overloadBlocks, blockChoices, hnone, blocksFor] at hderived
  cases hblock : blockParams none 0 params with
  | error failure => simp [hblock, bind, Except.bind] at hderived
  | ok block =>
      refine ⟨block, ?_⟩
      simpa [hblock, bind, Except.bind, pure, Except.pure, eq_comm] using hderived

/-- The overloads of a method with a driving parameter are a block for each of
its variants. -/
theorem overloads_driven {member : MemberInfo} {returnType : TypeRef}
    {params : List ResolvedParam} {derived : List Overload} {driver : Nat}
    {p : ResolvedParam} (hdriver : drivingParam? params = some driver)
    (hparam : params[driver]? = some p) (hunion : p.type.isUnion = true)
    (hseveral : 1 < p.type.variants.length)
    (hderived : overloads member returnType params = .ok derived) :
    ∃ before after, derived = p.type.variants.flatMap fun v =>
      overloadBlock member returnType.name (before ++ p.chosen v :: after) := by
  simp only [overloads, overloadBlocks, blockChoices, hdriver, hparam] at hderived
  cases hvariants : p.type.variants with
  | nil => simp [hvariants] at hseveral
  | cons v rest =>
      rw [hvariants] at hderived
      cases hblock : blockParams (some (driver, v)) 0 params with
      | error failure =>
          simp [blocksFor, hblock, bind, Except.bind] at hderived
      | ok block =>
          rw [← Nat.zero_add driver] at hblock
          obtain ⟨before, after, hall⟩ := blockParams_driven hparam hunion hblock
          rw [Nat.zero_add] at hall
          rw [blocksFor_driven hall] at hderived
          refine ⟨before, after, ?_⟩
          simpa [bind, Except.bind, pure, Except.pure, List.flatMap, eq_comm]
            using hderived

/-- The overloads of a method differ exactly if the driving parameter, if there
is one, is required and has variants with pairwise different spellings. -/
theorem overloads_nodup_iff {member : MemberInfo} {returnType : TypeRef}
    {params : List ResolvedParam} {derived : List Overload}
    (hderived : overloads member returnType params = .ok derived) :
    (derived.map Overload.parameterTypes).Nodup ↔
      ∀ driver p, drivingParam? params = some driver → params[driver]? = some p →
        p.required = true ∧
          (p.type.variants.map fun v => v.name.display).Nodup := by
  cases hdriver : drivingParam? params with
  | none =>
      obtain ⟨block, rfl⟩ := overloads_undriven hdriver hderived
      simp [overloadBlock_nodup]
  | some driver =>
      obtain ⟨p, hparam, hunion, hseveral⟩ := drivingParam?_some hdriver
      obtain ⟨before, after, rfl⟩ :=
        overloads_driven hdriver hparam hunion hseveral hderived
      rw [List.map_flatMap, List.nodup_flatMap]
      have hblocks : ∀ v ∈ p.type.variants,
          ((overloadBlock member returnType.name
            (before ++ p.chosen v :: after)).map Overload.parameterTypes).Nodup :=
        fun _ _ => overloadBlock_nodup _
      have hpairs : p.type.variants.Pairwise (fun v w =>
            p.required = true ∧ v.name.display ≠ w.name.display) ↔
          p.required = true ∧
            (p.type.variants.map fun v => v.name.display).Nodup := by
        rw [List.Nodup, List.pairwise_map]
        constructor
        · intro hall
          refine ⟨?_, hall.imp fun h => h.2⟩
          rcases hvariants : p.type.variants with _ | ⟨v, _ | ⟨w, rest⟩⟩
          · simp [hvariants] at hseveral
          · simp [hvariants] at hseveral
          · rw [hvariants] at hall
            exact (List.rel_of_pairwise_cons hall List.mem_cons_self).1
        · rintro ⟨hrequired, hdifferent⟩
          exact hdifferent.imp fun h => ⟨hrequired, h⟩
      constructor
      · rintro ⟨-, hdisjoint⟩ driver' p' ⟨rfl⟩ hparam'
        obtain rfl : p = p' := by simpa [hparam] using hparam'
        exact hpairs.mp (hdisjoint.imp overloadBlocks_disjoint_iff.mp)
      · intro hcondition
        refine ⟨hblocks, ?_⟩
        exact (hpairs.mpr (hcondition driver p rfl hparam)).imp
          overloadBlocks_disjoint_iff.mpr

/-! ## The methods of an accepted description -/

/-- In a run, these are the parameters of a member, resolved, and the overloads
that are derived from them. -/
def Derives (settings : Settings) (interface : ApiBindings.Interface)
    (address : Address) (member : Member) (params : List ResolvedParam)
    (derived : List Overload) : Prop :=
  ∃ known middle after returnType,
    Resolving.outcome (resolve settings (memberOwner interface member .method)
      (0 :: address) member.type) known = (.ok returnType, middle) ∧
    Resolving.outcome (resolveParams settings interface member address 1 member.params)
      middle = (.ok params, after) ∧
    overloads (.of member) returnType params = .ok derived

/-- The overloads of a member of an accepted description differ exactly if its
driving parameter, if there is one, is required and has variants with pairwise
different spellings. -/
theorem declare_overloads_nodup_iff {settings : Settings}
    {interfaces : List ApiBindings.Interface} {surface : Surface}
    {interface : ApiBindings.Interface} {member : Member} {i j : Nat}
    (haccepted : declare settings interfaces = .ok surface)
    (hinterface : interfaces[i]? = some interface)
    (hmember : interface.members[j]? = some member)
    (hkind : member.kind ≠ .event)
    (hsignatures : settings.signatures member.path = .ok .derived) :
    ∃ declared params derived,
      surface.interfaces[i]? = some declared ∧ derived <:+: declared.methods ∧
      Derives settings interface [j, i] member params derived ∧
      ((derived.map Overload.parameterTypes).Nodup ↔
        ∀ driver p, drivingParam? params = some driver → params[driver]? = some p →
          p.required = true ∧
            (p.type.variants.map fun v => v.name.display).Nodup) := by
  obtain ⟨_, hrun, -, -⟩ := declare_ok haccepted
  obtain ⟨_, _, declared, hdeclared, hrun⟩ := declareInterfaces_at hinterface hrun
  obtain ⟨-, -, -, hrun, -⟩ := declareInterface_ok hrun
  obtain ⟨before, after, derived, hinfix, hrun⟩ := declareMembers_at hmember hkind hrun
  rw [Nat.zero_add, Nat.zero_add] at hrun
  obtain ⟨returnType, middle, params, hresult, hparams, hderived⟩ :=
    declareMethod_ok hsignatures hrun
  exact ⟨declared, params, derived, hdeclared, hinfix,
    ⟨before, middle, after, returnType, hresult, hparams, hderived⟩,
    overloads_nodup_iff hderived⟩

/-- An interface whose only member is a method with this parameter. -/
def pageWith (required : Bool) (type : TypeNode) : ApiBindings.Interface where
  name := "Page"
  path := "Page"
  supertype := .null
  comment := .str []
  members :=
    [{ kind := .method, name := "choose", path := "Page.choose", type := none
       params :=
        [{ name := "value", path := "Page.choose.value", type, required, comment := .str [] }]
       comment := .str [], returnComment := .null, required := true }]

/-- Lists of texts and lists of addresses: arrays of texts, both of them. -/
def textArrays : TypeNode :=
  .union "" "Page.choose.value"
    [.array "Page.choose.value" (.primitive "string" "Page.choose.value"),
     .array "Page.choose.value" (.primitive "URL" "Page.choose.value")]

/-- A text or a number. -/
def textOrNumber : TypeNode :=
  .union "" "Page.choose.value"
    [.primitive "string" "Page.choose.value", .primitive "float" "Page.choose.value"]

theorem declare_overloads_nodup_iff_textArrays :
    ∃ surface declared params derived,
      declare .defaults [pageWith true textArrays] = .ok surface ∧
      surface.interfaces[0]? = some declared ∧ derived <:+: declared.methods ∧
      ∃ member, Derives .defaults (pageWith true textArrays) [0, 0] member params derived ∧
        ((derived.map Overload.parameterTypes).Nodup ↔
          ∀ driver p, drivingParam? params = some driver → params[driver]? = some p →
            p.required = true ∧
              (p.type.variants.map fun v => v.name.display).Nodup) := by
  cases haccepted : declare .defaults [pageWith true textArrays] with
  | error failure =>
      have hok : (declare .defaults [pageWith true textArrays]).toOption.isSome = true := by
        decide +kernel
      simp [haccepted, Except.toOption] at hok
  | ok surface =>
      obtain ⟨declared, params, derived, hdeclared, hinfix, hderives, hiff⟩ :=
        declare_overloads_nodup_iff (i := 0) (j := 0) haccepted rfl rfl (by decide) rfl
      exact ⟨surface, declared, params, derived, rfl, hdeclared, hinfix, _, hderives, hiff⟩

/-- The parameter types of the methods of each interface. -/
def methodTypes (settings : Settings) (interfaces : List ApiBindings.Interface) :
    Option (List (List (List Text))) :=
  (declare settings interfaces).toOption.map fun surface =>
    surface.interfaces.map fun i => i.methods.map Overload.parameterTypes

theorem overloads_clash :
    (∃ types, methodTypes .defaults [pageWith true textArrays] = some [types] ∧
      ¬types.Nodup) ∧
    (∃ types, methodTypes .defaults [pageWith false textOrNumber] = some [types] ∧
      ¬types.Nodup) := by
  refine ⟨⟨[["String[]"], ["String[]"]], ?_, ?_⟩,
    ⟨[[], ["String"], [], ["double"]], ?_, ?_⟩⟩ <;> decide +kernel

end Surface
end ApiBindings
