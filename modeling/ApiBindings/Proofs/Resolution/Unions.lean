import ApiBindings.Proofs.Resolution.Nullable
/-!
# What is left of unions

A union stays one only where it is the type of a parameter or of a field, and then its
variants are no unions, nor nullable.  A type is nullable exactly if it is a union of one
other type and null.  Outside fields no anonymous union is passed over: had one been
reached inside the type, it would not have been resolved.
-/

namespace ApiBindings
namespace TypeNode

/-- Whether a type is, promises aside, an anonymous union of null and one other type, bare
functions left out. -/
def IsNullable (node : TypeNode) : Prop :=
  ∃ path members, node.withoutPromise = .union "" path members ∧
    (counted members).length = 2 ∧ (counted members).countP isNull = 1

/-- The types that a type is resolved by: of an anonymous union, promises aside, the one
other than null if it is nullable, else those that get overloads of their own. -/
def resolvedBy (node : TypeNode) : List TypeNode :=
  match node.withoutPromise with
  | .union name _ members =>
    if name = "" then
      match nullableMember? members with
      | some member => [member]
      | none => variants members
    else [node]
  | _ => [node]

variable {node : TypeNode} {path : Text} {members : List TypeNode}

theorem isNullable_iff (hunion : node.withoutPromise = .union "" path members) :
    node.IsNullable ↔ (nullableMember? members).isSome = true := by
  rw [isSome_nullableMember?]
  constructor
  · rintro ⟨path', members', hunion', hnullable⟩
    obtain ⟨-, -, rfl⟩ := TypeNode.union.inj (hunion.symm.trans hunion')
    exact hnullable
  · exact fun hnullable => ⟨path, members, hunion, hnullable⟩

theorem not_isNullable_of_whole (hwhole : node.withoutPromise.isAnonymousUnion = false) :
    ¬node.IsNullable := by
  rintro ⟨path, members, hunion, -⟩
  rw [hunion] at hwhole
  exact nomatch hwhole

theorem resolvedBy_of_whole (hwhole : node.withoutPromise.isAnonymousUnion = false) :
    node.resolvedBy = [node] := by
  unfold resolvedBy
  split
  next name path members hnode =>
    rw [hnode] at hwhole
    rw [if_neg (of_decide_eq_false hwhole)]
  next => rfl

theorem resolvedBy_of_union (hunion : node.withoutPromise = .union "" path members) :
    node.resolvedBy =
      match nullableMember? members with
      | some member => [member]
      | none => variants members := by
  rw [resolvedBy, hunion]
  rfl

end TypeNode

namespace Resolving

variable {settings : Settings} {owner : Owner} {address : Address}

/-- What is left of the unions of a type that is resolved for an owner of some kind. -/
structure UnionsResolved (kind : OwnerKind) (node : TypeNode) (ref : TypeRef) : Prop where
  kept : ref.isUnion = true → kind = .param ∨ kind = .field
  variants : ∀ variant ∈ ref.variants, variant.Plain
  isNullable : ref.isNullable = true ↔ node.IsNullable
  unionFree : kind ≠ .field → ∀ part ∈ node.resolvedBy, part.UnionFree

section

variable {kind : OwnerKind} {node : TypeNode} {ref : TypeRef}

theorem UnionsResolved.of_plain (hplain : ref.Plain) (hnot : ¬node.IsNullable)
    (hfree : kind ≠ .field → ∀ part ∈ node.resolvedBy, part.UnionFree) :
    UnionsResolved kind node ref where
  kept hunion := nomatch hplain.isUnion.symm.trans hunion
  variants := by
    rw [hplain.variants]
    simp
  isNullable := by
    rw [hplain.isNullable]
    exact iff_of_false Bool.false_ne_true hnot
  unionFree := hfree

theorem UnionsResolved.of_union {name : Text} {variants : List TypeRef}
    (hkind : kind = .param ∨ kind = .field) (hvariants : ∀ variant ∈ variants, variant.Plain)
    (hnot : ¬node.IsNullable)
    (hfree : kind ≠ .field → ∀ part ∈ node.resolvedBy, part.UnionFree) :
    UnionsResolved kind node (.union name variants) where
  kept _ := hkind
  variants := hvariants
  isNullable := iff_of_false Bool.false_ne_true hnot
  unionFree := hfree

theorem UnionsResolved.of_nullable (hplain : ref.Plain) (hnullable : node.IsNullable)
    (hfree : kind ≠ .field → ∀ part ∈ node.resolvedBy, part.UnionFree) :
    UnionsResolved kind node ref.asNullable where
  kept hunion := nomatch hplain.isUnion.symm.trans ((isUnion_asNullable ref).symm.trans hunion)
  variants := by
    have hsame : ref.asNullable.variants = ref.variants := by cases ref; rfl
    rw [hsame, hplain.variants]
    simp
  isNullable := by
    have hset : ref.asNullable.isNullable = true := by cases ref; rfl
    exact iff_of_true hset hnullable
  unionFree := hfree

end

theorem gives_convertVariants_whole (fixed : Bool) (made : Option TypeRef)
    (members : List TypeNode) (hmade : ∀ ref ∈ made, ref.Plain) :
    Gives (convertVariants settings owner address fixed made members) fun result =>
      (∀ variant ∈ result.1, variant.Plain) ∧ (∀ ref ∈ result.2, ref.Plain) ∧
        (owner.kind ≠ .field → ∀ member ∈ TypeNode.variants members, member.UnionFree) := by
  induction members generalizing made with
  | nil => exact .pure ⟨by simp, hmade, by simp [TypeNode.variants]⟩
  | cons member rest ih =>
      rw [convertVariants, TypeNode.variants, List.filter_cons]
      split
      next =>
        apply (gives_convert_inner member fixed made hmade).bind
        rintro ⟨ref, made'⟩ ⟨hplain, hmade', hfree⟩
        apply (ih made' hmade').bind
        rintro ⟨refs, made''⟩ ⟨hplains, hmade'', hfrees⟩
        exact .pure ⟨List.forall_mem_cons.mpr ⟨hplain, hplains⟩, hmade'', fun hkind =>
          List.forall_mem_cons.mpr ⟨hfree hkind, hfrees hkind⟩⟩
      next => exact ih made hmade

section

variable {node : TypeNode} {path : Text} {members : List TypeNode}

theorem gives_convert_nullable {member : TypeNode}
    (hunion : node.withoutPromise = .union "" path members)
    (hmember : TypeNode.nullableMember? members = some member) :
    Gives (convert settings owner address .outer false none node) fun result =>
      UnionsResolved owner.kind node result.1 := by
  have hpart : node.withoutPromise.nullablePart? = some member := by
    rw [hunion, TypeNode.nullablePart?_union, hmember]
  have hnullable : node.IsNullable := by
    rw [TypeNode.isNullable_iff hunion, hmember]
    rfl
  rw [convert_of_nullablePart? hpart]
  apply (gives_convert_inner member false none (by simp)).bind
  rintro ⟨ref, made⟩ ⟨hplain, -, hfree⟩
  refine .pure (.of_nullable hplain hnullable fun hkind => ?_)
  rw [TypeNode.resolvedBy_of_union hunion, hmember]
  simpa using hfree hkind

/-- An anonymous union that is not nullable has to be the type of a parameter or of a field,
and its variants are converted. -/
theorem gives_convert_several (hunion : node.withoutPromise = .union "" path members)
    (hmember : TypeNode.nullableMember? members = none) :
    Gives (convert settings owner address .outer false none node) fun result =>
      UnionsResolved owner.kind node result.1 := by
  have hnot : ¬node.IsNullable := by
    rw [TypeNode.isNullable_iff hunion, hmember]
    exact Bool.false_ne_true
  have hparts : node.resolvedBy = TypeNode.variants members := by
    rw [TypeNode.resolvedBy_of_union hunion, hmember]
  rw [convert_withoutPromise, hunion, convert]
  simp only [ne_eq, not_true_eq_false, if_false, hmember, Option.isSome_none,
    Bool.false_eq_true]
  cases hkind : owner.kind with
  | param =>
      apply (gives_convertVariants_whole _ none members (by simp)).bind
      rintro ⟨refs, made⟩ ⟨hplains, -, hfrees⟩
      refine .pure (.of_union (.inl rfl) hplains hnot fun hother => ?_)
      rw [hparts]
      exact hfrees (hkind ▸ hother)
  | field =>
      apply (gives_convertVariants_whole _ none members (by simp)).bind
      rintro ⟨refs, made⟩ ⟨hplains, hmade, -⟩
      have hfree : OwnerKind.field ≠ .field → ∀ part ∈ node.resolvedBy, part.UnionFree :=
        fun hother => absurd rfl hother
      cases made with
      | none => exact .pure (.of_union (.inr rfl) hplains hnot hfree)
      | some ref => exact .pure (.of_plain (hmade ref rfl) hnot hfree)
  | method => exact .throw _
  | event => exact .throw _

end

theorem gives_convert_unions (node : TypeNode) :
    Gives (convert settings owner address .outer false none node) fun result =>
      UnionsResolved owner.kind node result.1 := by
  cases hwhole : node.withoutPromise.isAnonymousUnion with
  | false =>
      rw [convert_outer_eq_inner false none hwhole]
      refine (gives_convert_inner node false none (by simp)).imp fun result h => ?_
      refine .of_plain h.plain (TypeNode.not_isNullable_of_whole hwhole) fun hkind => ?_
      rw [TypeNode.resolvedBy_of_whole hwhole]
      simpa using h.unionFree hkind
  | true =>
      obtain ⟨path, members, hunion⟩ := exists_union_of_isAnonymousUnion hwhole
      cases hmember : TypeNode.nullableMember? members with
      | some member => exact gives_convert_nullable hunion hmember
      | none => exact gives_convert_several hunion hmember

/-- Where nothing replaces a type and it has not been resolved, what is left of its unions
is told by the type and by what it is the type of. -/
theorem resolve_unions {known after : Knowledge} {node : TypeNode} {ref : TypeRef}
    (hoverride : ∀ o, settings.override? owner.path ≠ .ok (some o))
    (hfresh : known.resolved.lookup address = none)
    (hrun : outcome (resolve settings owner address (some node)) known = (.ok ref, after)) :
    UnionsResolved owner.kind node ref := by
  have hderived : outcome (resolveType settings owner address node) known = (.ok ref, after) :=
    hrun
  cases hfound : settings.override? owner.path with
  | error failure =>
      rw [outcome_resolveType_of_unreadable hfound hfresh] at hderived
      exact nomatch hderived
  | ok found =>
      cases found with
      | some override => exact absurd hfound (hoverride override)
      | none =>
          rw [outcome_resolveType_of_fresh hfound hfresh] at hderived
          have hgives : ∀ result,
              (outcome (convert settings owner address .outer false none node) known).1 =
                .ok result → UnionsResolved owner.kind node result.1 :=
            (gives_convert_unions node).result known
          generalize outcome (convert settings owner address .outer false none node) known = ended
            at hderived hgives
          rcases ended with ⟨failure | result, middle⟩
          · exact nomatch hderived
          · obtain rfl : result.1 = ref := Except.ok.inj (congrArg Prod.fst hderived)
            exact hgives result rfl

/-- Of a parameter: a text, a list of promised numbers or nothing. -/
def textOrNumbers : TypeNode :=
  promiseOf (.union "" "Page.size"
    [.primitive "string" "Page.size",
     .array "Page.size" (promiseOf (.primitive "int" "Page.size")),
     .primitive "null" "Page.size"])

def sizeParam : Owner := ⟨"Page.resize.size", .param, "size", "resize", "Page"⟩

theorem resolve_unions_textOrNumbers :
    ∃ ref after,
      outcome (resolve .defaults sizeParam [0] (some textOrNumbers)) .empty = (.ok ref, after) ∧
      ref.variants.length = 2 ∧ UnionsResolved .param textOrNumbers ref := by
  have hvariants : (outcome (resolve .defaults sizeParam [0] (some textOrNumbers))
      .empty).1.toOption.map (fun ref => ref.variants.length) = some 2 := by decide +kernel
  have hoverride : ∀ o, Settings.defaults.override? sizeParam.path ≠ .ok (some o) :=
    fun _ hfound => nomatch hfound
  rcases hrun : outcome (resolve .defaults sizeParam [0] (some textOrNumbers)) .empty with
    ⟨failure | ref, after⟩
  · rw [hrun] at hvariants
    exact nomatch hvariants
  · rw [hrun] at hvariants
    exact ⟨ref, after, rfl, Option.some.inj hvariants, resolve_unions hoverride rfl hrun⟩

end Resolving
end ApiBindings
