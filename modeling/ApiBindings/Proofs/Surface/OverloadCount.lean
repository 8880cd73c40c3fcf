import ApiBindings.Proofs.Resolution.Variants
import ApiBindings.Proofs.Surface.OverloadBlocks
import ApiBindings.Proofs.Surface.Turn
/-!
# How many overloads a method has

The variants of parameters are counted in the description.  When it is the turn of a
member, nothing is remembered of its types, so a parameter is resolved to a union
exactly if it is one there.  The counts then tell the overloads of the member.
-/

namespace ApiBindings
namespace Surface

open Resolving (outcome outcome_bind outcome_ofExcept outcome_bind_ok ClearFrom SplitsTo
  variantsAt? resolveType_splits resolveType_clearFrom)

/-! ## Variants in the description -/

/-- A parameter of a member, resolved: to a union exactly if it has variants in the
description, and then to one of them. -/
structure ResolvesTo (settings : Settings) (interface : ApiBindings.Interface)
    (member : Member) (slot : Slot TypeNode) (p : ResolvedParam) : Prop where
  name : p.name = slot.name
  path : p.path = slot.path
  required : p.required = slot.required
  comment : p.comment = slot.comment
  type : SplitsTo settings (paramOwner interface member slot)
    (variantsAt? settings slot.path slot.type) p.type

/-- How many variants each parameter has in the description, if its type is an anonymous
union. -/
def variantCounts (settings : Settings) (slots : List (Slot TypeNode)) : List (Option Nat) :=
  slots.map fun slot => (variantsAt? settings slot.path slot.type).map List.length

section

variable {settings : Settings} {interface : ApiBindings.Interface} {member : Member}
  {address : Address} {known middle after : Knowledge} {slots : List (Slot TypeNode)}
  {params : List ResolvedParam} {position : Nat}

theorem resolveParams_resolvesTo (hclear : ClearFrom address position known)
    (hrun : outcome (resolveParams settings interface member address position slots) known =
      (.ok params, after)) :
    List.Forall₂ (ResolvesTo settings interface member) slots params := by
  induction slots generalizing position known params with
  | nil =>
      obtain rfl : [] = params := by
        simpa [resolveParams] using congrArg Prod.fst hrun
      exact .nil
  | cons slot rest ih =>
      unfold resolveParams at hrun
      obtain ⟨type, middle, htype, hrun⟩ := outcome_bind_ok hrun
      obtain ⟨others, last, hothers, hrun⟩ := outcome_bind_ok hrun
      obtain rfl : _ :: others = params := by simpa using congrArg Prod.fst hrun
      have hsplits := resolveType_splits rfl hclear.here htype
      have hmiddle : ClearFrom address (position + 1) middle := by
        have hkept : ClearFrom address (position + 1)
            (outcome (resolveType settings (paramOwner interface member slot)
              (position :: address) slot.type) known).2 :=
          resolveType_clearFrom hclear.succ
        rwa [htype] at hkept
      have hlast : last = after := by simpa using congrArg Prod.snd hrun
      rw [hlast] at hothers
      exact .cons ⟨rfl, rfl, rfl, rfl, hsplits⟩ (ih hmiddle hothers)

theorem ResolvesTo.count? {slot : Slot TypeNode} {p : ResolvedParam}
    (hresolved : ResolvesTo settings interface member slot p) :
    p.count? = (variantsAt? settings slot.path slot.type).map List.length := by
  have htype := hresolved.type
  cases hvariants : variantsAt? settings slot.path slot.type with
  | none =>
      rw [hvariants] at htype
      exact count?_of_whole htype
  | some nodes =>
      rw [hvariants] at htype
      obtain ⟨refs, hunion, hnodes⟩ := htype
      have hlength : p.type.variants.length = nodes.length := by
        rw [hunion]
        exact hnodes.length_eq.symm
      rw [count?_of_union (by rw [hunion]; rfl), hlength, Option.map_some]

theorem map_count?_of_resolvesTo
    (hresolved : List.Forall₂ (ResolvesTo settings interface member) slots params) :
    params.map ResolvedParam.count? = variantCounts settings slots := by
  induction hresolved with
  | nil => rfl
  | cons hfirst _ ih =>
      rw [List.map_cons, ih, hfirst.count?]
      rfl

theorem countP_optional_of_resolvesTo
    (hresolved : List.Forall₂ (ResolvesTo settings interface member) slots params) :
    (params.countP fun p => !p.required) = slots.countP fun slot => !slot.required := by
  induction hresolved with
  | nil => rfl
  | cons hfirst _ ih => rw [List.countP_cons, List.countP_cons, ih, hfirst.required]

/-! ## The overloads of a method -/

theorem declareMethod_derived {returnType : TypeRef}
    (hsignatures : settings.signatures member.path = .ok .derived)
    (hresult : outcome (resolve settings (memberOwner interface member .method)
      (0 :: address) member.type) known = (.ok returnType, middle))
    (hparams : outcome (resolveParams settings interface member address 1 member.params)
      middle = (.ok params, after)) :
    outcome (declareMethod settings interface address member) known =
      (overloads (.of member) returnType params, after) := by
  unfold declareMethod
  rw [outcome_bind, outcome_ofExcept, hsignatures]
  dsimp only
  rw [outcome_bind, hresult]
  dsimp only
  rw [outcome_bind, hparams]
  exact outcome_ofExcept _ _

/-- How many overloads a method has is told by the variants of its parameters in the
description, if its types can be resolved. -/
theorem declareMethod_blocks {interfaces : List ApiBindings.Interface} {i j : Nat}
    {returnType : TypeRef} (hturn : Turn settings interfaces i j interface member known)
    (hsignatures : settings.signatures member.path = .ok .derived)
    (hresult : outcome (resolve settings (memberOwner interface member .method) [0, j, i]
      member.type) known = (.ok returnType, middle))
    (hparams : outcome (resolveParams settings interface member [j, i] 1 member.params)
      middle = (.ok params, after)) :
    List.Forall₂ (ResolvesTo settings interface member) member.params params ∧
    ((∃ index, Offends (variantCounts settings member.params) index) →
      ∃ index slot, OffendsFirst (variantCounts settings member.params) index ∧
        member.params[index]? = some slot ∧
        (Cause.secondUnionParameter slot.name).family = .unsupportedTypeShape ∧
        outcome (declareMethod settings interface [j, i] member) known =
          (.error ((Cause.secondUnionParameter slot.name).atPath slot.path), after)) ∧
    ((¬∃ index, Offends (variantCounts settings member.params) index) →
      ∃ derived,
        outcome (declareMethod settings interface [j, i] member) known = (.ok derived, after) ∧
        derived.length = max 1 (drivingCount (variantCounts settings member.params)) *
          (1 + member.params.countP fun slot => !slot.required) ∧
        InBlocks (max 1 (drivingCount (variantCounts settings member.params)))
          (1 + member.params.countP fun slot => !slot.required) params derived) := by
  have hmiddle : ClearFrom [j, i] 1 middle := by
    have hkept : ClearFrom [j, i] (0 + 1)
        (outcome (resolve settings (memberOwner interface member .method) [0, j, i]
          member.type) known).2 :=
      resolve_clearFrom (.of_clear hturn.clear)
    rwa [hresult] at hkept
  have hresolved := resolveParams_resolvesTo hmiddle hparams
  have hcounts := map_count?_of_resolvesTo hresolved
  rw [declareMethod_derived hsignatures hresult hparams, ← hcounts,
    ← countP_optional_of_resolvesTo hresolved]
  refine ⟨hresolved, fun hoffends => ?_, fun hfine => ?_⟩
  · obtain ⟨index, hfirst⟩ := exists_offendsFirst hoffends
    have hbound' : index < params.length := by simpa using hfirst.1.lt_length
    have hbound : index < member.params.length := hresolved.length_eq ▸ hbound'
    have hparam : ResolvesTo settings interface member member.params[index] params[index] :=
      hresolved.get hbound hbound'
    refine ⟨index, member.params[index], hfirst, List.getElem?_eq_getElem hbound, rfl, ?_⟩
    rw [overloads_error (.of member) returnType (List.getElem?_eq_getElem hbound') hfirst,
      hparam.name, hparam.path]
  · obtain ⟨derived, hderived, hblocks⟩ :=
      exists_overloads (.of member) returnType fun index hoffends => hfine ⟨index, hoffends⟩
    exact ⟨derived, by rw [hderived], length_of_inBlocks hblocks, hblocks⟩

end

/-- A method of a text or number and an optional style, which is one of these types. -/
def choosing (styles : List TypeNode) : Member where
  kind := .method
  name := "choose"
  path := "Page.choose"
  type := none
  params :=
    [{ name := "value", path := "Page.choose.value", type := textOrNumber, required := true
       comment := .str [] },
     { name := "style", path := "Page.choose.style", required := false, comment := .str []
       type := .union "" "Page.choose.style" styles }]
  comment := .str []
  returnComment := .null
  required := true

/-- A page with a method of a style. -/
def stylingPage (styles : List TypeNode) : ApiBindings.Interface where
  name := "Page"
  path := "Page"
  supertype := .null
  comment := .str []
  members := [choosing styles]

/-- A style that is a text, or a number. -/
def textStyle : TypeNode := .primitive "string" "Page.choose.style"

def numberStyle : TypeNode := .primitive "float" "Page.choose.style"

theorem turn_choosing (styles : List TypeNode) :
    Turn .defaults [stylingPage styles] 0 0 (stylingPage styles) (choosing styles) .empty := by
  have hsupertypes : (supertypes .defaults (stylingPage [])).isOk = true := by decide +kernel
  exact ⟨rfl, rfl, exists_of_isOk hsupertypes, [], .empty, ([], []), rfl, rfl⟩

theorem declareMethod_blocks_choosing :
    (∃ derived after params,
      outcome (declareMethod .defaults (stylingPage [textStyle]) [0, 0] (choosing [textStyle]))
        .empty = (.ok derived, after) ∧
      derived.length = 4 ∧ InBlocks 2 2 params derived) ∧
    ∃ after,
      outcome (declareMethod .defaults (stylingPage [textStyle, numberStyle]) [0, 0]
        (choosing [textStyle, numberStyle])) .empty =
          (.error ((Cause.secondUnionParameter "style").atPath "Page.choose.style"), after) := by
  have hresolved : ∀ styles, (outcome (resolveParams .defaults (stylingPage styles)
      (choosing styles) [0, 0] 1 (choosing styles).params) .empty).1.isOk = true →
      ∃ params after, outcome (resolveParams .defaults (stylingPage styles)
        (choosing styles) [0, 0] 1 (choosing styles).params) .empty = (.ok params, after) := by
    intro styles hok
    obtain ⟨params, hparams⟩ := exists_of_isOk hok
    exact ⟨params, _, Prod.ext hparams rfl⟩
  constructor
  · obtain ⟨params, after, hparams⟩ := hresolved [textStyle] (by decide +kernel)
    have hcounts : variantCounts .defaults (choosing [textStyle]).params = [some 2, some 1] := by
      decide +kernel
    obtain ⟨-, -, hfine⟩ := declareMethod_blocks (turn_choosing [textStyle]) rfl rfl hparams
    rw [hcounts] at hfine
    have hnone : ¬∃ index, Offends [some 2, some 1] index := by
      rintro ⟨_ | _ | index, hoffends⟩ <;> simp [Offends, SeveralAt] at hoffends
    obtain ⟨derived, hrun, hlength, hblocks⟩ := hfine hnone
    exact ⟨derived, after, params, hrun, hlength, hblocks⟩
  · obtain ⟨params, after, hparams⟩ := hresolved [textStyle, numberStyle] (by decide +kernel)
    have hcounts : variantCounts .defaults (choosing [textStyle, numberStyle]).params =
        [some 2, some 2] := by
      decide +kernel
    obtain ⟨-, herror, -⟩ :=
      declareMethod_blocks (turn_choosing [textStyle, numberStyle]) rfl rfl hparams
    rw [hcounts] at herror
    have hoffends : ∃ index, Offends [some 2, some 2] index :=
      ⟨1, by simp [Offends, SeveralAt]⟩
    obtain ⟨index, slot, hfirst, hslot, -, hrun⟩ := herror hoffends
    obtain rfl : index = 1 := by
      rcases index with _ | _ | index <;> simp [OffendsFirst, Offends, SeveralAt] at hfirst ⊢
    obtain rfl := Option.some.inj hslot
    exact ⟨after, hrun⟩

end Surface
end ApiBindings
