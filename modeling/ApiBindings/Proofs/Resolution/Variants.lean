import ApiBindings.Proofs.Resolution.Footprint
/-!
# Variants of resolved types

Only the anonymous union that a parameter is, promises aside, stays a union when
it is resolved, with a variant for each of its members that gets overloads of its
own.  Deeper inside a type no union is left: that of a field becomes an object, and
every other one fails, wherever it is reached.
-/

namespace ApiBindings

/-- A reference that is told by its name: it is no union, and not nullable. -/
structure TypeRef.Plain (ref : TypeRef) : Prop where
  isUnion : ref.isUnion = false
  isNullable : ref.isNullable = false
  variants : ref.variants = []

theorem TypeRef.plain_builtin (spelling : Text) : (TypeRef.builtin spelling).Plain :=
  ⟨rfl, rfl, rfl⟩

theorem TypeRef.plain_enum (name : Json) : (TypeRef.enum name).Plain :=
  ⟨rfl, rfl, rfl⟩

theorem ClassPlan.plain_ref (plan : ClassPlan) : plan.ref.Plain :=
  ⟨rfl, rfl, rfl⟩

namespace TypeNode

/-- Whether a type is a union without a name. -/
def isAnonymousUnion : TypeNode → Bool
  | .union name _ _ => name = ""
  | _ => false

/-- What is reached from a type through the elements of arrays, the keys and values of
maps, the arguments of promises and those of functions. -/
inductive Reaches : TypeNode → TypeNode → Prop where
  | here (node : TypeNode) : Reaches node node
  | element {path : Text} {element part : TypeNode} (hpart : Reaches element part) :
      Reaches (.array path element) part
  | key {name path : Text} {key value part : TypeNode} (hpart : Reaches key part) :
      Reaches (.map name path key value) part
  | value {name path : Text} {key value part : TypeNode} (hpart : Reaches value part) :
      Reaches (.map name path key value) part
  | promised {path : Text} {args : List TypeNode} {arg part : TypeNode} (harg : arg ∈ args)
      (hpart : Reaches arg part) : Reaches (.generic "Promise" path args) part
  | argument {path : Text} {args : List TypeNode} {result : Option TypeNode}
      {arg part : TypeNode} (harg : arg ∈ args) (hpart : Reaches arg part) :
      Reaches (.function path args result) part

/-- No anonymous union is reached from a type. -/
def UnionFree (node : TypeNode) : Prop :=
  ∀ part, node.Reaches part → part.isAnonymousUnion = false

theorem UnionFree.array {path : Text} {element : TypeNode} (helement : element.UnionFree) :
    (TypeNode.array path element).UnionFree := by
  rintro _ (_ | hpart)
  · rfl
  · exact helement _ hpart

theorem UnionFree.map {name path : Text} {key value : TypeNode} (hkey : key.UnionFree)
    (hvalue : value.UnionFree) : (TypeNode.map name path key value).UnionFree := by
  rintro _ (_ | _ | hpart | hpart)
  · rfl
  · exact hkey _ hpart
  · exact hvalue _ hpart

theorem UnionFree.promise {path : Text} {arg : TypeNode} (harg : arg.UnionFree) :
    (TypeNode.generic "Promise" path [arg]).UnionFree := by
  rintro _ (_ | _ | _ | _ | ⟨hmem, hpart⟩)
  · rfl
  · obtain rfl := List.mem_singleton.mp hmem
    exact harg _ hpart

theorem UnionFree.function {path : Text} {arg : TypeNode} {result : Option TypeNode}
    (harg : arg.UnionFree) : (TypeNode.function path [arg] result).UnionFree := by
  rintro _ (_ | _ | _ | _ | _ | ⟨hmem, hpart⟩)
  · rfl
  · obtain rfl := List.mem_singleton.mp hmem
    exact harg _ hpart

end TypeNode

/-- The members that get overloads of their own, if a type is an anonymous union,
promises aside, and not one of `T` and null. -/
def TypeNode.variants? (node : TypeNode) : Option (List TypeNode) :=
  match node.withoutPromise with
  | .union name _ members =>
    if name = "" ∧ (nullableMember? members).isNone then some (variants members) else none
  | _ => none

namespace Resolving

variable {settings : Settings} {owner : Owner} {address : Address}

section

variable {α β : Type} {post : α → Prop} {post' : β → Prop}

/-- Every result of a step, from whatever is known, has a property. -/
structure Gives (step : Resolving α) (post : α → Prop) : Prop where
  result : ∀ known a, (outcome step known).1 = .ok a → post a

theorem Gives.pure {a : α} (hpost : post a) : Gives (pure a) post where
  result _ _ hresult := Except.ok.inj hresult ▸ hpost

theorem Gives.throw (failure : Failure) : Gives (throw failure) post where
  result _ _ hresult := nomatch hresult

theorem Gives.imp {post' : α → Prop} {step : Resolving α} (hstep : Gives step post)
    (himp : ∀ a, post a → post' a) : Gives step post' where
  result known a hresult := himp a (hstep.result known a hresult)

theorem Gives.bind {step : Resolving α} {next : α → Resolving β} (hstep : Gives step post)
    (hnext : ∀ a, post a → Gives (next a) post') : Gives (step >>= next) post' where
  result known b hresult := by
    have hrun := outcome_bind step next known
    have ha := hstep.result known
    generalize outcome step known = ended at hrun ha
    obtain ⟨result, after⟩ := ended
    rw [hrun] at hresult
    cases result with
    | error failure => cases hresult
    | ok a => exact (hnext a (ha a rfl)).result after b hresult

theorem Gives.bind_any {step : Resolving α} {next : α → Resolving β}
    (hnext : ∀ a, Gives (next a) post') : Gives (step >>= next) post' := by
  have hstep : Gives step fun _ => True := ⟨fun _ _ _ => trivial⟩
  exact hstep.bind fun a _ => hnext a

end

/-- Inside a type no union is left: neither its reference nor the class made on the way is
one, and unless it is the type of a field it has none in it. -/
structure Whole (kind : OwnerKind) (node : TypeNode) (result : TypeRef × Option TypeRef) :
    Prop where
  plain : result.1.Plain
  made : ∀ ref ∈ result.2, ref.Plain
  unionFree : kind ≠ .field → node.UnionFree

theorem gives_convert_inner (node : TypeNode) (fixed : Bool) (made : Option TypeRef)
    (hmade : ∀ ref ∈ made, ref.Plain) :
    Gives (convert settings owner address .inner fixed made node) (Whole owner.kind node) := by
  have hbuiltin : ∀ spelling made, (∀ ref ∈ made, ref.Plain) →
      (owner.kind ≠ .field → node.UnionFree) →
      Gives (pure (.builtin spelling, made)) (Whole owner.kind node) :=
    fun _ _ hmade hfree => .pure ⟨TypeRef.plain_builtin _, hmade, hfree⟩
  cases node with
  | primitive name path =>
      rw [convert]
      split
      next => exact .throw _
      next =>
        refine hbuiltin _ _ hmade fun _ => ?_
        rintro _ ⟨⟩
        rfl
  | array path element =>
      rw [convert]
      apply (gives_convert_inner element fixed made hmade).bind
      rintro ⟨ref, made'⟩ ⟨-, hmade', hfree⟩
      dsimp only
      split
      next => exact hbuiltin _ _ hmade' fun hkind => (hfree hkind).array
      next => exact .bind_any fun _ => hbuiltin _ _ hmade' fun hkind => (hfree hkind).array
  | map name path key value =>
      rw [convert]
      split
      next => exact .throw _
      next =>
        apply (gives_convert_inner key false made hmade).bind
        rintro ⟨ref, made'⟩ ⟨-, hmade', hkey⟩
        apply (gives_convert_inner value false made' hmade').bind
        rintro ⟨ref', made''⟩ ⟨-, hmade'', hvalue⟩
        exact .bind_any fun _ => hbuiltin _ _ hmade'' fun hkind =>
          (hkey hkind).map (hvalue hkind)
  | generic name path args =>
      rcases args with _ | ⟨arg, _ | ⟨other, rest⟩⟩
      · exact .throw _
      · rw [convert]
        split
        next hname =>
          refine (gives_convert_inner arg fixed made hmade).imp fun result hwhole => ?_
          refine ⟨hwhole.plain, hwhole.made, fun hkind => ?_⟩
          rw [hname]
          exact (hwhole.unionFree hkind).promise
        next => exact .throw _
      · rw [convert]
        · exact .throw _
        · simp
  | bareFunction path result =>
      rw [convert]
      exact .throw _
  | function path args result =>
      rcases args with _ | ⟨arg, _ | ⟨other, rest⟩⟩
      · exact .throw _
      · rw [convert]
        apply (gives_convert_inner arg false made hmade).bind
        rintro ⟨ref, made'⟩ ⟨-, hmade', hfree⟩
        dsimp only
        split
        next => exact .bind_any fun _ => hbuiltin _ _ hmade' fun hkind => (hfree hkind).function
        next => exact .bind_any fun _ => hbuiltin _ _ hmade' fun hkind => (hfree hkind).function
        next => exact .throw _
      · rw [convert]
        · exact .throw _
        · simp
  | union name path members =>
      rw [convert]
      split
      next hname =>
        refine .bind_any fun _ => .pure ⟨TypeRef.plain_enum _, hmade, fun _ => ?_⟩
        rintro _ ⟨⟩
        exact decide_eq_false hname
      next =>
        dsimp only
        split
        next hkind => exact hbuiltin _ _ hmade fun hother => absurd hkind hother
        next => exact .throw _
        next => contradiction
  | record path properties =>
      have hfree : (TypeNode.record path properties).UnionFree := by
        rintro _ ⟨⟩
        rfl
      cases made with
      | some ref =>
          rw [convert]
          exact .pure ⟨hmade ref rfl, hmade, fun _ => hfree⟩
      | none =>
          rw [convert]
          refine .bind_any fun plan => .bind_any fun _ =>
            .pure ⟨plan.plain_ref, ?_, fun _ => hfree⟩
          rintro _ ⟨rfl⟩
          exact plan.plain_ref
termination_by structural node

/-- A type is converted to a reference, as part of a type of its owner. -/
def ConvertsTo (settings : Settings) (owner : Owner) (node : TypeNode) (ref : TypeRef) : Prop :=
  ∃ address fixed made known made',
    (outcome (convert settings owner address .inner fixed made node) known).1 = .ok (ref, made')

theorem gives_convertVariants (fixed : Bool) (made : Option TypeRef) (members : List TypeNode) :
    Gives (convertVariants settings owner address fixed made members) fun result =>
      List.Forall₂ (ConvertsTo settings owner) (TypeNode.variants members) result.1 := by
  induction members generalizing made with
  | nil => exact .pure .nil
  | cons member rest ih =>
      rw [convertVariants, TypeNode.variants, List.filter_cons]
      split
      next =>
        have hmember : Gives (convert settings owner address .inner fixed made member)
            fun result => ConvertsTo settings owner member result.1 :=
          ⟨fun known result hresult => ⟨address, fixed, made, known, result.2, hresult⟩⟩
        apply hmember.bind
        rintro ⟨ref, made'⟩ href
        apply (ih made').bind
        rintro ⟨refs, made''⟩ hrefs
        exact .pure (.cons href hrefs)
      next => exact ih made

theorem gives_convertNullable (members : List TypeNode) :
    Gives (convertNullable settings owner address none members) fun result =>
      result.1.isUnion = false := by
  induction members with
  | nil => exact .pure rfl
  | cons member rest ih =>
      rw [convertNullable]
      split
      next =>
        exact (gives_convert_inner member false none (by simp)).imp
          fun _ hwhole => hwhole.plain.isUnion
      next => exact ih

/-- What a type of a parameter is resolved to: a union exactly if it has variants. -/
def SplitsTo (settings : Settings) (owner : Owner) (variants? : Option (List TypeNode))
    (ref : TypeRef) : Prop :=
  match variants? with
  | some nodes => ∃ refs, ref = .union [] refs ∧ List.Forall₂ (ConvertsTo settings owner) nodes refs
  | none => ref.isUnion = false

theorem isUnion_asNullable (ref : TypeRef) : ref.asNullable.isUnion = ref.isUnion := by
  cases ref
  rfl

theorem gives_convert_union (hkind : owner.kind = .param) (fixed : Bool) (name path : Text)
    (members : List TypeNode) :
    Gives (convert settings owner address .outer fixed none (.union name path members))
      fun result => SplitsTo settings owner (TypeNode.variants? (.union name path members))
        result.1 := by
  rw [convert, TypeNode.variants?, TypeNode.withoutPromise, hkind]
  · dsimp only
    by_cases hname : name = ""
    · simp only [hname, ne_eq, not_true_eq_false, if_false, true_and]
      cases hnullable : TypeNode.nullableMember? members with
      | some member =>
          simp only [Option.isSome_some, Option.isNone_some, if_true, Bool.false_eq_true, if_false]
          apply (gives_convertNullable members).bind
          intro result hresult
          exact .pure ((isUnion_asNullable result.1).trans hresult)
      | none =>
          simp only [Option.isSome_none, Option.isNone_none, Bool.false_eq_true, if_false, if_true]
          apply (gives_convertVariants _ none members).bind
          rintro ⟨refs, made⟩ hrefs
          exact .pure ⟨refs, rfl, hrefs⟩
    · simp only [hname, ne_eq, not_false_eq_true, if_true, false_and, if_false]
      exact .bind_any fun enum => .pure rfl
  · simp

/-- Promises around a type are transparent. -/
theorem convert_withoutPromise (depth : Depth) (fixed : Bool) (made : Option TypeRef)
    (node : TypeNode) :
    convert settings owner address depth fixed made node =
      convert settings owner address depth fixed made node.withoutPromise := by
  induction node using TypeNode.withoutPromise.induct with
  | case1 path arg ih =>
      rw [convert, TypeNode.withoutPromise, if_pos rfl, if_pos rfl]
      exact ih
  | case2 name path arg hname => rw [TypeNode.withoutPromise, if_neg hname]
  | case3 node hother => rw [TypeNode.withoutPromise.eq_2 node hother]

/-- Only an anonymous union is converted in another way where it is outermost. -/
theorem convert_outer_eq_inner (fixed : Bool) (made : Option TypeRef) {node : TypeNode}
    (hwhole : node.withoutPromise.isAnonymousUnion = false) :
    convert settings owner address .outer fixed made node =
      convert settings owner address .inner fixed made node := by
  induction node using TypeNode.withoutPromise.induct with
  | case1 path arg ih =>
      rw [TypeNode.withoutPromise, if_pos rfl] at hwhole
      rw [convert, convert, if_pos rfl, if_pos rfl]
      exact ih hwhole
  | case2 name path arg hname => rw [convert, convert, if_neg hname, if_neg hname]
  | case3 node hother =>
      rw [TypeNode.withoutPromise.eq_2 node hother] at hwhole
      cases node with
      | union name path members =>
          have hname : name ≠ "" := of_decide_eq_false hwhole
          rw [convert, convert, if_pos hname, if_pos hname]
      | generic name path args =>
          rcases args with _ | ⟨arg, _ | ⟨other, rest⟩⟩
          · rfl
          · exact absurd rfl (hother name path arg)
          · rfl
      | function path args result => rcases args with _ | ⟨arg, _ | ⟨other, rest⟩⟩ <;> rfl
      | record path properties => cases made <;> rfl
      | _ => rfl

theorem exists_union_of_isAnonymousUnion {node : TypeNode}
    (hunion : node.isAnonymousUnion = true) : ∃ path members, node = .union "" path members := by
  cases node with
  | union name path members =>
      obtain rfl : name = "" := of_decide_eq_true hunion
      exact ⟨path, members, rfl⟩
  | _ => exact nomatch hunion

/-- A type is resolved to a union only if it has variants, and then to one of
them. -/
theorem gives_convert_outer (hkind : owner.kind = .param) (fixed : Bool) (node : TypeNode) :
    Gives (convert settings owner address .outer fixed none node) fun result =>
      SplitsTo settings owner node.variants? result.1 := by
  cases hunion : node.withoutPromise.isAnonymousUnion with
  | false =>
      have hnone : node.variants? = none := by
        unfold TypeNode.variants?
        split
        next name path members hnode =>
          rw [hnode] at hunion
          rw [if_neg fun hname => of_decide_eq_false hunion hname.1]
        next => rfl
      rw [convert_outer_eq_inner fixed none hunion, hnone]
      exact (gives_convert_inner node fixed none (by simp)).imp fun _ h => h.plain.isUnion
  | true =>
      obtain ⟨path, members, hnode⟩ := exists_union_of_isAnonymousUnion hunion
      have hsame : node.variants? = TypeNode.variants? (.union "" path members) := by
        rw [TypeNode.variants?, TypeNode.variants?, hnode]
        rfl
      rw [convert_withoutPromise, hnode, hsame]
      exact gives_convert_union hkind fixed "" path members

/-- The variants that a parameter of this path has, unless its type is replaced. -/
def variantsAt? (settings : Settings) (path : Text) (node : TypeNode) : Option (List TypeNode) :=
  match settings.override? path with
  | .ok none => node.variants?
  | _ => none

theorem override?_of_replacement?_none {path expression : Text}
    (hreplaced : replacement? settings path expression = .ok none) :
    settings.override? path = .ok none := by
  unfold replacement? at hreplaced
  obtain ⟨found, hoverride, hreplaced⟩ := exists_of_bind_ok hreplaced
  cases found with
  | none => exact hoverride
  | some override =>
      dsimp only at hreplaced
      split at hreplaced
      next => exact nomatch hreplaced
      next => exact nomatch hreplaced

theorem eq_of_modify_pure {change : Knowledge → Knowledge} {known after : Knowledge}
    {made ref : TypeRef}
    (hrun : outcome (do modify change; pure made) known = (.ok ref, after)) : made = ref := by
  rw [outcome_bind, outcome_modify] at hrun
  exact Except.ok.inj (congrArg Prod.fst hrun)

/-- Where nothing is remembered, a type of a parameter is replaced or derived. -/
theorem resolveType_splits {known after : Knowledge} {node : TypeNode} {ref : TypeRef}
    (hkind : owner.kind = .param) (hclear : known.Clear address)
    (hrun : outcome (resolveType settings owner address node) known = (.ok ref, after)) :
    SplitsTo settings owner (variantsAt? settings owner.path node) ref := by
  unfold resolveType resolveOnce at hrun
  rw [outcome_get_bind, hclear.lookup] at hrun
  obtain ⟨replaced, hreplaced, hrun⟩ := outcome_ofExcept_bind_ok hrun
  cases replaced with
  | some replaced =>
      obtain ⟨override, hoverride, hmade⟩ := replacement?_some hreplaced
      have hsame : replaced = ref := eq_of_modify_pure hrun
      have hwhole : replaced.isUnion = false := by
        rw [hmade]
        split <;> rfl
      rw [variantsAt?, hoverride, ← hsame]
      exact hwhole
  | none =>
      obtain ⟨derived, middle, hderived, hrun⟩ := outcome_bind_ok hrun
      obtain ⟨result, last, hconvert, hresult⟩ := outcome_bind_ok hderived
      have hsame : result.1 = ref := by
        have hfirst : result.1 = derived := by simpa using congrArg Prod.fst hresult
        exact hfirst.trans (eq_of_modify_pure hrun)
      rw [variantsAt?, override?_of_replacement?_none hreplaced, ← hsame]
      exact (gives_convert_outer hkind false node).result known result
        (congrArg Prod.fst hconvert)

end Resolving
end ApiBindings
