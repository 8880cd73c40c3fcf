import ApiBindings.Proofs.Surface.OverloadClash
import Mathlib.Data.Nat.Find
/-!
# Blocks of overloads

The overloads of a method depend on how many variants each of its parameters has.
One parameter may have several: there is a block of overloads for each of them, and
in each block one overload for each optional parameter and one with all parameters.
A second parameter with several variants has no place in this, nor has one with none.
-/

namespace ApiBindings
namespace Surface

/-! ## Counts of variants -/

/-- The number of variants of a parameter, if its type is a union. -/
def ResolvedParam.count? (p : ResolvedParam) : Option Nat :=
  if p.type.isUnion then some p.type.variants.length else none

/-- The parameter at this index has several variants. -/
def SeveralAt (counts : List (Option Nat)) (index : Nat) : Prop :=
  ∃ count, counts[index]? = some (some count) ∧ 1 < count

/-- The parameter at this index has no variants, or has several and is not the first
one that has. -/
def Offends (counts : List (Option Nat)) (index : Nat) : Prop :=
  counts[index]? = some (some 0) ∨
    SeveralAt counts index ∧ ∃ earlier < index, SeveralAt counts earlier

/-- The parameter at this index is the first one that offends. -/
def OffendsFirst (counts : List (Option Nat)) (index : Nat) : Prop :=
  Offends counts index ∧ ∀ earlier < index, ¬Offends counts earlier

theorem exists_offendsFirst {counts : List (Option Nat)}
    (hoffends : ∃ index, Offends counts index) : ∃ index, OffendsFirst counts index := by
  classical
  exact ⟨Nat.find hoffends, Nat.find_spec hoffends, fun _ => Nat.find_min hoffends⟩

theorem Offends.lt_length {counts : List (Option Nat)} {index : Nat}
    (hoffends : Offends counts index) : index < counts.length := by
  rcases hoffends with hnone | ⟨⟨count, hcount, -⟩, -⟩
  · exact (List.getElem?_eq_some_iff.mp hnone).1
  · exact (List.getElem?_eq_some_iff.mp hcount).1

/-- The number of variants of the first parameter that has several. -/
def drivingCount (counts : List (Option Nat)) : Nat :=
  (counts.findSome? fun count => count.filter fun n => decide (1 < n)).getD 0

theorem filter_eq_none_of_not_severalAt {counts : List (Option Nat)} {index : Nat}
    {count : Option Nat} (hcount : counts[index]? = some count)
    (hnot : ¬SeveralAt counts index) : (count.filter fun n => decide (1 < n)) = none := by
  rw [Option.filter_eq_none_iff]
  intro n hn hseveral
  exact hnot ⟨n, by rw [hcount, hn], by simpa using hseveral⟩

theorem drivingCount_eq {counts : List (Option Nat)} {index count : Nat}
    (hcount : counts[index]? = some (some count)) (hseveral : 1 < count)
    (hfirst : ∀ earlier < index, ¬SeveralAt counts earlier) : drivingCount counts = count := by
  obtain ⟨hbound, hat⟩ := List.getElem?_eq_some_iff.mp hcount
  have hsplit : counts = counts.take index ++ some count :: counts.drop (index + 1) := by
    rw [← hat, List.getElem_cons_drop, List.take_append_drop]
  have hbefore : ∀ other ∈ counts.take index,
      (other.filter fun n => decide (1 < n)) = none := by
    intro other hother
    obtain ⟨earlier, hother⟩ := List.mem_iff_getElem?.mp hother
    rw [List.getElem?_take] at hother
    split at hother
    next hearlier => exact filter_eq_none_of_not_severalAt hother (hfirst earlier hearlier)
    next => exact nomatch hother
  have hfound : (counts.findSome? fun count => count.filter fun n => decide (1 < n)) =
      some count :=
    List.findSome?_eq_some_iff.mpr
      ⟨counts.take index, some count, _, hsplit, by simp [Option.filter, hseveral], hbefore⟩
  rw [drivingCount, hfound, Option.getD_some]

theorem drivingCount_eq_zero {counts : List (Option Nat)}
    (hnone : ∀ index, ¬SeveralAt counts index) : drivingCount counts = 0 := by
  have hall : ∀ count ∈ counts, (count.filter fun n => decide (1 < n)) = none := by
    intro count hcount
    obtain ⟨index, hcount⟩ := List.mem_iff_getElem?.mp hcount
    exact filter_eq_none_of_not_severalAt hcount (hnone index)
  rw [drivingCount, List.findSome?_eq_none_iff.mpr hall, Option.getD_none]

section

variable {params : List ResolvedParam} {p : ResolvedParam} {index : Nat}

theorem count?_of_union (hunion : p.type.isUnion = true) :
    p.count? = some p.type.variants.length :=
  if_pos hunion

theorem count?_of_whole (hwhole : p.type.isUnion = false) : p.count? = none := by
  simp [ResolvedParam.count?, hwhole]

theorem severalAt_iff (hparam : params[index]? = some p) :
    SeveralAt (params.map ResolvedParam.count?) index ↔
      p.type.isUnion = true ∧ 1 < p.type.variants.length := by
  cases hunion : p.type.isUnion with
  | false => simp [SeveralAt, hparam, count?_of_whole hunion]
  | true => simp [SeveralAt, hparam, count?_of_union hunion]

theorem drivingParam?_eq_some_iff :
    drivingParam? params = some index ↔
      SeveralAt (params.map ResolvedParam.count?) index ∧
        ∀ earlier < index, ¬SeveralAt (params.map ResolvedParam.count?) earlier := by
  have hat : ∀ k (hk : k < params.length),
      SeveralAt (params.map ResolvedParam.count?) k ↔
        (params[k].type.isUnion && decide (1 < params[k].type.variants.length)) = true :=
    fun k hk => by simp [severalAt_iff (List.getElem?_eq_getElem hk)]
  rw [drivingParam?, List.findIdx?_eq_some_iff_getElem]
  constructor
  · rintro ⟨hbound, hseveral, hbefore⟩
    refine ⟨(hat index hbound).mpr hseveral, fun earlier hearlier => ?_⟩
    rw [hat earlier (Nat.lt_trans hearlier hbound)]
    exact hbefore earlier hearlier
  · rintro ⟨hseveral, hbefore⟩
    have hbound : index < params.length := by
      obtain ⟨count, hcount, -⟩ := hseveral
      simpa using (List.getElem?_eq_some_iff.mp hcount).1
    refine ⟨hbound, (hat index hbound).mp hseveral, fun earlier hearlier => ?_⟩
    have hnot := hbefore earlier hearlier
    rwa [hat earlier (Nat.lt_trans hearlier hbound)] at hnot

theorem drivingParam?_isSome_of_severalAt
    (hseveral : SeveralAt (params.map ResolvedParam.count?) index) :
    ∃ driver ≤ index, drivingParam? params = some driver := by
  classical
  have hexists : ∃ k, SeveralAt (params.map ResolvedParam.count?) k := ⟨index, hseveral⟩
  refine ⟨Nat.find hexists, Nat.find_min' hexists hseveral, ?_⟩
  exact drivingParam?_eq_some_iff.mpr
    ⟨Nat.find_spec hexists, fun earlier hearlier => Nat.find_min hexists hearlier⟩

/-- A union offends unless it has one variant or drives the overloads. -/
theorem offends_iff (hparam : params[index]? = some p) :
    Offends (params.map ResolvedParam.count?) index ↔
      p.type.isUnion = true ∧ p.type.variants.length ≠ 1 ∧
        drivingParam? params ≠ some index := by
  constructor
  · rintro (hnone | ⟨hseveral, earlier, hearlier, hother⟩)
    · cases hunion : p.type.isUnion with
      | false => simp [hparam, count?_of_whole hunion] at hnone
      | true =>
          have hempty : p.type.variants.length = 0 := by
            simpa [hparam, count?_of_union hunion] using hnone
          refine ⟨rfl, by omega, fun hdriver => ?_⟩
          -- the driving parameter has several variants
          have hseveral := (severalAt_iff hparam).mp (drivingParam?_eq_some_iff.mp hdriver).1
          omega
    · obtain ⟨hunion, hlength⟩ := (severalAt_iff hparam).mp hseveral
      refine ⟨hunion, by omega, fun hdriver => ?_⟩
      exact (drivingParam?_eq_some_iff.mp hdriver).2 earlier hearlier hother
  · rintro ⟨hunion, hlength, hdriver⟩
    by_cases hempty : p.type.variants.length = 0
    · left
      simp [hparam, count?_of_union hunion, hempty]
    · right
      have hseveral : SeveralAt (params.map ResolvedParam.count?) index :=
        (severalAt_iff hparam).mpr ⟨hunion, by omega⟩
      -- some parameter drives the overloads, and it is another one before this
      obtain ⟨driver, hle, hdrives⟩ := drivingParam?_isSome_of_severalAt hseveral
      have hne : driver ≠ index := by
        rintro rfl
        exact hdriver hdrives
      exact ⟨hseveral, driver, by omega, (drivingParam?_eq_some_iff.mp hdrives).1⟩

end

/-! ## Types in blocks -/

/-- The type of a parameter in the block of this number: a union is one of its
variants, or the only one that it has. -/
def ResolvedParam.typeIn? (block : Nat) (p : ResolvedParam) : Option Json :=
  if p.type.isUnion then
    match p.type.variants with
    | [variant] => some variant.name
    | variants => variants[block]?.map TypeRef.name
  else some p.type.name

/-- What a choice says of the parameter at a position. -/
def chosenAt (choice : Option (Nat × TypeRef)) (position : Nat) : Option TypeRef :=
  match choice with
  | some (driver, variant) => if driver = position then some variant else none
  | none => none

section

variable {params : List ResolvedParam} {p : ResolvedParam} {index block : Nat}
  {choice : Option (Nat × TypeRef)}

theorem typeIn?_of_whole (hwhole : p.type.isUnion = false) (block : Nat) :
    p.typeIn? block = some p.type.name := by
  simp [ResolvedParam.typeIn?, hwhole]

theorem typeIn?_of_several (hunion : p.type.isUnion = true)
    (hseveral : 1 < p.type.variants.length) (block : Nat) :
    p.typeIn? block = p.type.variants[block]?.map TypeRef.name := by
  rw [ResolvedParam.typeIn?, if_pos hunion]
  split
  next hone => simp [hone] at hseveral
  next => rfl

/-- Each block chooses its variant of the driving parameter and nothing else. -/
theorem chosenAt_blockChoices (hchoice : (blockChoices params)[block]? = some choice)
    (hparam : params[index]? = some p) :
    chosenAt choice index =
      if drivingParam? params = some index then p.type.variants[block]? else none := by
  unfold blockChoices at hchoice
  cases hdriver : drivingParam? params with
  | none =>
      have hnone : choice = none := by
        rw [hdriver] at hchoice
        exact (List.mem_singleton.mp (List.mem_of_getElem? hchoice))
      simp [chosenAt, hnone]
  | some driver =>
      obtain ⟨q, hq, -, -⟩ := drivingParam?_some hdriver
      simp only [hdriver, hq, List.getElem?_map, Option.map_eq_some_iff] at hchoice
      obtain ⟨variant, hvariant, rfl⟩ := hchoice
      by_cases hsame : driver = index
      · obtain rfl : q = p := by
          rw [hsame, hparam] at hq
          exact (Option.some.inj hq).symm
        simp [chosenAt, hsame, hvariant]
      · simp [chosenAt, hsame]

theorem exists_variant_of_blockChoices
    (hchoice : (blockChoices params)[block]? = some choice)
    (hdriver : drivingParam? params = some index) (hparam : params[index]? = some p) :
    ∃ variant, p.type.variants[block]? = some variant := by
  have hbound := (List.getElem?_eq_some_iff.mp hchoice).1
  simp only [blockChoices, hdriver, hparam, List.length_map] at hbound
  exact ⟨_, List.getElem?_eq_getElem hbound⟩

/-- There is a block for each variant of the driving parameter, or a single one. -/
theorem length_blockChoices (params : List ResolvedParam) :
    (blockChoices params).length =
      max 1 (drivingCount (params.map ResolvedParam.count?)) := by
  cases hdriver : drivingParam? params with
  | none =>
      have hnone : ∀ index, ¬SeveralAt (params.map ResolvedParam.count?) index := by
        intro index hseveral
        obtain ⟨driver, -, hdrives⟩ := drivingParam?_isSome_of_severalAt hseveral
        exact nomatch hdriver.symm.trans hdrives
      rw [blockChoices, hdriver, drivingCount_eq_zero hnone]
      rfl
  | some driver =>
      obtain ⟨p, hparam, hunion, hseveral⟩ := drivingParam?_some hdriver
      have hcount : (params.map ResolvedParam.count?)[driver]? =
          some (some p.type.variants.length) := by
        simp [hparam, count?_of_union hunion]
      have hfirst := (drivingParam?_eq_some_iff.mp hdriver).2
      have hchoices : blockChoices params =
          p.type.variants.map fun variant => some (driver, variant) := by
        simp only [blockChoices, hdriver, hparam]
      rw [hchoices, List.length_map, drivingCount_eq hcount hseveral hfirst,
        Nat.max_eq_right (Nat.le_of_lt hseveral)]

theorem blockType_of_not_offends
    (hchoice : (blockChoices params)[block]? = some choice)
    (hparam : params[index]? = some p)
    (hfine : ¬Offends (params.map ResolvedParam.count?) index) :
    ∃ type, blockType (chosenAt choice index) p = .ok type ∧
      p.typeIn? block = some type := by
  rw [chosenAt_blockChoices hchoice hparam]
  cases hunion : p.type.isUnion with
  | false => exact ⟨p.type.name, by simp [blockType, hunion], typeIn?_of_whole hunion block⟩
  | true =>
      by_cases hdriver : drivingParam? params = some index
      · obtain ⟨variant, hvariant⟩ := exists_variant_of_blockChoices hchoice hdriver hparam
        have hseveral := ((severalAt_iff hparam).mp (drivingParam?_eq_some_iff.mp hdriver).1).2
        refine ⟨variant.name, ?_, ?_⟩
        · rw [if_pos hdriver, hvariant]
          simp [blockType, hunion]
        · rw [typeIn?_of_several hunion hseveral, hvariant, Option.map_some]
      · have hone : p.type.variants.length = 1 := by
          by_contra hlength
          exact hfine ((offends_iff hparam).mpr ⟨hunion, hlength, hdriver⟩)
        obtain ⟨variant, hvariants⟩ := List.length_eq_one_iff.mp hone
        rw [if_neg hdriver]
        exact ⟨variant.name, by simp [blockType, hunion, hvariants],
          by simp [ResolvedParam.typeIn?, hunion, hvariants]⟩

theorem blockType_of_offends
    (hchoice : (blockChoices params)[block]? = some choice)
    (hparam : params[index]? = some p)
    (hoffends : Offends (params.map ResolvedParam.count?) index) :
    blockType (chosenAt choice index) p =
      .error ((Cause.secondUnionParameter p.name).atPath p.path) := by
  obtain ⟨hunion, hlength, hdriver⟩ := (offends_iff hparam).mp hoffends
  rw [chosenAt_blockChoices hchoice hparam, if_neg hdriver]
  unfold blockType
  simp only [hunion, Bool.not_true, Bool.false_eq_true, if_false]
  split
  next hsome => exact nomatch hsome
  next hvariants => simp [hvariants] at hlength
  next => rfl

end

/-! ## Blocks of overloads -/

/-- What the block of this number makes of a parameter. -/
structure TypedIn (block : Nat) (p : ResolvedParam) (own : BlockParam) : Prop where
  name : own.name = p.name
  required : own.required = p.required
  comment : own.comment = p.comment
  type : p.typeIn? block = some own.type

/-- How an overload in the block of this number declares a parameter. -/
structure DeclaredIn (block : Nat) (p : ResolvedParam) (declared : Param) : Prop where
  name : declared.name = p.name
  comment : declared.comment = p.comment
  type : p.typeIn? block = some declared.type

/-- The parameters that an overload can keep: all of them, or those before an optional
one and the required ones after it. -/
inductive Keeps (params : List ResolvedParam) : List ResolvedParam → Prop where
  | all : Keeps params params
  | before {init rest : List ResolvedParam} {omitted : ResolvedParam}
      (hsplit : params = init ++ omitted :: rest) (hoptional : omitted.required = false) :
      Keeps params (init ++ rest.filter (·.required))

/-- Overloads come in this many blocks of this size, each of which types the parameters
in its own way. -/
def InBlocks (count size : Nat) (params : List ResolvedParam) (derived : List Overload) :
    Prop :=
  ∃ blocks : List (List Overload), derived = blocks.flatten ∧ blocks.length = count ∧
    ∀ block overloads, blocks[block]? = some overloads → overloads.length = size ∧
      ∀ overload ∈ overloads, ∃ kept, Keeps params kept ∧
        List.Forall₂ (DeclaredIn block) kept overload.params

section

variable {params : List ResolvedParam} {p : ResolvedParam} {own : List BlockParam}
  {position index block : Nat} {choice : Option (Nat × TypeRef)} {failure : Failure}
  {member : MemberInfo} {returnType : Json}

theorem blockParams_cons (choice : Option (Nat × TypeRef)) (position : Nat)
    (p : ResolvedParam) (rest : List ResolvedParam) :
    blockParams choice position (p :: rest) = do
      let type ← blockType (chosenAt choice position) p
      let others ← blockParams choice (position + 1) rest
      return ⟨p.name, type, p.required, p.comment⟩ :: others :=
  rfl

theorem exists_blockParams
    (htypes : ∀ index p, params[index]? = some p →
      ∃ type, blockType (chosenAt choice (position + index)) p = .ok type ∧
        p.typeIn? block = some type) :
    ∃ own, blockParams choice position params = .ok own ∧
      List.Forall₂ (TypedIn block) params own := by
  induction params generalizing position with
  | nil => exact ⟨[], rfl, .nil⟩
  | cons p rest ih =>
      obtain ⟨type, htype, htypeIn⟩ := htypes 0 p rfl
      have hrest : ∀ index q, rest[index]? = some q →
          ∃ type, blockType (chosenAt choice (position + 1 + index)) q = .ok type ∧
            q.typeIn? block = some type := by
        intro index q hq
        rw [Nat.add_assoc, Nat.add_comm 1 index]
        exact htypes (index + 1) q (by simpa using hq)
      obtain ⟨own, hown, htyped⟩ := ih hrest
      rw [Nat.add_zero] at htype
      refine ⟨⟨p.name, type, p.required, p.comment⟩ :: own, ?_,
        .cons ⟨rfl, rfl, rfl, htypeIn⟩ htyped⟩
      rw [blockParams_cons, htype, hown]
      rfl

/-- A block fails as its first parameter without a type does. -/
theorem blockParams_error (hparam : params[index]? = some p)
    (herror : blockType (chosenAt choice (position + index)) p = .error failure)
    (hbefore : ∀ earlier < index, ∀ q, params[earlier]? = some q →
      ∃ type, blockType (chosenAt choice (position + earlier)) q = .ok type) :
    blockParams choice position params = .error failure := by
  induction params generalizing position index with
  | nil => simp at hparam
  | cons q rest ih =>
      cases index with
      | zero =>
          obtain rfl : q = p := by simpa using hparam
          rw [blockParams_cons, ← Nat.add_zero position, herror]
          rfl
      | succ index =>
          obtain ⟨type, htype⟩ := hbefore 0 (by omega) q rfl
          have hrest : blockParams choice (position + 1) rest = .error failure := by
            apply ih (by simpa using hparam)
            · rwa [Nat.add_assoc, Nat.add_comm 1 index]
            · intro earlier hearlier other hother
              rw [Nat.add_assoc, Nat.add_comm 1 earlier]
              exact hbefore (earlier + 1) (by omega) other (by simpa using hother)
          rw [Nat.add_zero] at htype
          rw [blockParams_cons, htype, hrest]
          rfl

theorem exists_blocksFor (member : MemberInfo) (returnType : Json)
    {choices : List (Option (Nat × TypeRef))}
    (hblocks : ∀ choice ∈ choices, ∃ own, blockParams choice 0 params = .ok own) :
    ∃ blocks, blocksFor member returnType params choices = .ok blocks ∧
      List.Forall₂ (fun choice overloads => ∃ own,
        blockParams choice 0 params = .ok own ∧
          overloads = overloadBlock member returnType own) choices blocks := by
  induction choices with
  | nil => exact ⟨[], rfl, .nil⟩
  | cons choice rest ih =>
      obtain ⟨own, hown⟩ := hblocks choice List.mem_cons_self
      obtain ⟨others, hothers, hall⟩ :=
        ih fun choice hchoice => hblocks choice (List.mem_cons_of_mem _ hchoice)
      refine ⟨overloadBlock member returnType own :: others, ?_,
        .cons ⟨own, hown, rfl⟩ hall⟩
      rw [blocksFor, hown, hothers]
      rfl

theorem length_defaultOverloads (before own : List BlockParam) :
    (defaultOverloads member returnType before own).length =
      own.countP fun q => !q.required := by
  induction own generalizing before with
  | nil => rfl
  | cons q rest ih =>
      rw [defaultOverloads, List.length_append, ih, List.countP_cons]
      cases q.required <;> rfl

theorem countP_optional_of_typedIn (htyped : List.Forall₂ (TypedIn block) params own) :
    (own.countP fun q => !q.required) = params.countP fun p => !p.required := by
  induction htyped with
  | nil => rfl
  | cons hfirst _ ih => rw [List.countP_cons, List.countP_cons, ih, hfirst.required]

theorem declaredIn_of_typedIn (htyped : List.Forall₂ (TypedIn block) params own) :
    List.Forall₂ (DeclaredIn block) params (own.map BlockParam.declaration) := by
  rw [List.forall₂_map_right_iff]
  exact htyped.imp fun p q h => ⟨h.name, h.comment, h.type⟩

/-- A split of the parameters of a block is one of the parameters that it types. -/
theorem exists_split_of_typedIn {init rest : List BlockParam} {q : BlockParam}
    (htyped : List.Forall₂ (TypedIn block) params (init ++ q :: rest)) :
    ∃ before p after, params = before ++ p :: after ∧
      List.Forall₂ (TypedIn block) before init ∧ TypedIn block p q ∧
      List.Forall₂ (TypedIn block) after rest := by
  have hinit := List.forall₂_take_append params init (q :: rest) htyped
  have hrest := List.forall₂_drop_append params init (q :: rest) htyped
  obtain ⟨p, after, hp, hafter, hdrop⟩ := List.forall₂_cons_right_iff.mp hrest
  refine ⟨params.take init.length, p, after, ?_, hinit, hp, hafter⟩
  rw [← hdrop, List.take_append_drop]

/-- An overload that omits a parameter declares the others that are required, and those
before it. -/
theorem declaredIn_omitting {before after : List ResolvedParam} {init rest : List BlockParam}
    (omitted : BlockParam) (hinit : List.Forall₂ (TypedIn block) before init)
    (hrest : List.Forall₂ (TypedIn block) after rest) :
    List.Forall₂ (DeclaredIn block) (before ++ after.filter (·.required))
      (omitting member returnType init omitted rest).params := by
  have hrequired : List.Forall₂ (TypedIn block) (after.filter (·.required))
      (rest.filter (·.required)) :=
    List.rel_filter (fun p q h => by simp [h.required]) hrest
  exact declaredIn_of_typedIn (List.rel_append hinit hrequired)

/-- An overload of a block keeps parameters as the block has them. -/
theorem exists_keeps_of_mem_overloadBlock
    (htyped : List.Forall₂ (TypedIn block) params own) {overload : Overload}
    (hmem : overload ∈ overloadBlock member returnType own) :
    ∃ kept, Keeps params kept ∧ List.Forall₂ (DeclaredIn block) kept overload.params := by
  rw [overloadBlock, List.mem_append, List.mem_singleton] at hmem
  rcases hmem with hdefault | rfl
  · obtain ⟨init, omitted, rest, rfl, hoptional, rfl⟩ := mem_defaultOverloads.mp hdefault
    obtain ⟨before, p, after, hsplit, hinit, hp, hrest⟩ := exists_split_of_typedIn htyped
    refine ⟨_, .before hsplit (hp.required.symm.trans hoptional), ?_⟩
    exact declaredIn_omitting omitted hinit hrest
  · exact ⟨params, .all, declaredIn_of_typedIn htyped⟩

theorem exists_typedIn (hchoice : (blockChoices params)[block]? = some choice)
    (hfine : ∀ index, ¬Offends (params.map ResolvedParam.count?) index) :
    ∃ own, blockParams choice 0 params = .ok own ∧
      List.Forall₂ (TypedIn block) params own := by
  apply exists_blockParams
  intro index p hparam
  rw [Nat.zero_add]
  exact blockType_of_not_offends hchoice hparam (hfine index)

/-- There is a block of overloads for each choice, and it types the parameters in its own
way. -/
theorem exists_blocks (member : MemberInfo) (returnType : TypeRef)
    (hfine : ∀ index, ¬Offends (params.map ResolvedParam.count?) index) :
    ∃ blocks : List (List Overload),
      overloads member returnType params = .ok blocks.flatten ∧
      blocks.length = max 1 (drivingCount (params.map ResolvedParam.count?)) ∧
      ∀ block overloads, blocks[block]? = some overloads →
        ∃ own, List.Forall₂ (TypedIn block) params own ∧
          overloads = overloadBlock member returnType.name own := by
  have hblocks : ∀ choice ∈ blockChoices params,
      ∃ own, blockParams choice 0 params = .ok own := by
    intro choice hmem
    obtain ⟨block, hchoice⟩ := List.mem_iff_getElem?.mp hmem
    obtain ⟨own, hown, -⟩ := exists_typedIn hchoice hfine
    exact ⟨own, hown⟩
  obtain ⟨blocks, hrun, hall⟩ := exists_blocksFor member returnType.name hblocks
  refine ⟨blocks, ?_, ?_, ?_⟩
  · rw [overloads, overloadBlocks, hrun]
    rfl
  · rw [← hall.length_eq, length_blockChoices]
  · intro block overloads hat
    obtain ⟨hbound, rfl⟩ := List.getElem?_eq_some_iff.mp hat
    have hchosen : block < (blockChoices params).length := hall.length_eq ▸ hbound
    obtain ⟨own, hown, hoverloads⟩ := hall.get hchosen hbound
    obtain ⟨own', hown', htyped⟩ :=
      exists_typedIn (List.getElem?_eq_getElem hchosen) hfine
    obtain rfl : own = own' := Except.ok.inj (hown.symm.trans hown')
    exact ⟨own, htyped, hoverloads⟩

theorem exists_overloads (member : MemberInfo) (returnType : TypeRef)
    (hfine : ∀ index, ¬Offends (params.map ResolvedParam.count?) index) :
    ∃ derived, overloads member returnType params = .ok derived ∧
      InBlocks (max 1 (drivingCount (params.map ResolvedParam.count?)))
        (1 + params.countP fun p => !p.required) params derived := by
  obtain ⟨blocks, hrun, hlength, hall⟩ := exists_blocks member returnType hfine
  refine ⟨blocks.flatten, hrun, blocks, rfl, hlength, ?_⟩
  intro block overloads hat
  obtain ⟨own, htyped, rfl⟩ := hall block overloads hat
  constructor
  · rw [overloadBlock, List.length_append, length_defaultOverloads,
      countP_optional_of_typedIn htyped, List.length_singleton, Nat.add_comm]
  · exact fun overload hmem => exists_keeps_of_mem_overloadBlock htyped hmem

theorem overloads_error (member : MemberInfo) (returnType : TypeRef)
    (hparam : params[index]? = some p)
    (hfirst : OffendsFirst (params.map ResolvedParam.count?) index) :
    overloads member returnType params =
      .error ((Cause.secondUnionParameter p.name).atPath p.path) := by
  have hlength := length_blockChoices params
  cases hchoices : blockChoices params with
  | nil =>
      rw [hchoices, List.length_nil] at hlength
      omega
  | cons choice rest =>
      have hchoice : (blockChoices params)[0]? = some choice := by rw [hchoices]; rfl
      have hblock : blockParams choice 0 params =
          .error ((Cause.secondUnionParameter p.name).atPath p.path) := by
        apply blockParams_error hparam
        · rw [Nat.zero_add]
          exact blockType_of_offends hchoice hparam hfirst.1
        · intro earlier hearlier q hq
          rw [Nat.zero_add]
          obtain ⟨type, htype, -⟩ :=
            blockType_of_not_offends hchoice hq (hfirst.2 earlier hearlier)
          exact ⟨type, htype⟩
      rw [overloads, overloadBlocks, hchoices, blocksFor, hblock]
      rfl

theorem length_of_inBlocks {count size : Nat} {derived : List Overload}
    (hblocks : InBlocks count size params derived) : derived.length = count * size := by
  obtain ⟨blocks, rfl, rfl, hall⟩ := hblocks
  have hsizes : ∀ overloads ∈ blocks, overloads.length = size := by
    intro overloads hmem
    obtain ⟨block, hat⟩ := List.mem_iff_getElem?.mp hmem
    exact (hall block overloads hat).1
  rw [List.length_flatten, List.map_congr_left hsizes, List.map_const', List.sum_replicate_nat]

end

end Surface
end ApiBindings
