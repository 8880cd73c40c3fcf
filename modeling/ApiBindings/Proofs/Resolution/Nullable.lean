import ApiBindings.Proofs.Resolution.Parallel
import ApiBindings.Proofs.Resolution.Variants
/-!
# Nullable types

An anonymous union of one type and null is that type, and nullable.  Bare functions do not
count among the members, their order does not matter, and promises around the union are
transparent.  So resolving the union comes down to resolving the one type, failures included.
-/

namespace ApiBindings
namespace TypeNode

variable {members : List TypeNode} {member : TypeNode}

/-- The members of a union that count when it is asked whether the union is nullable. -/
def counted (members : List TypeNode) : List TypeNode :=
  members.filter fun m => !m.isBareFunction

/-- Of the members that count, one is this type, and the other one is null. -/
structure OrNull (single : TypeNode) (members : List TypeNode) : Prop where
  variant : single.isVariant = true
  members : ∃ null, null.isNull = true ∧ (counted members).Perm [single, null]

theorem find?_isVariant_of_nullableMember? (hnullable : nullableMember? members = some member) :
    members.find? isVariant = some member := by
  unfold nullableMember? at hnullable
  dsimp only at hnullable
  split at hnullable
  next =>
    rw [List.find?_filter] at hnullable
    rw [← hnullable]
    congr 1
    funext m
    rw [isVariant, Bool.and_comm]
    simp
  next => exact nomatch hnullable

theorem nullablePart?_union (path : Text) (members : List TypeNode) :
    nullablePart? (.union "" path members) = nullableMember? members := by
  rw [nullablePart?, if_pos rfl]

/-- A union is nullable if it has two members that count and exactly one of them is null. -/
theorem isSome_nullableMember? (members : List TypeNode) :
    (nullableMember? members).isSome = true ↔
      (counted members).length = 2 ∧ (counted members).countP isNull = 1 := by
  have hunfold : nullableMember? members =
      if (counted members).length = 2 ∧ (counted members).any isNull then
        (counted members).find? fun m => !m.isNull
      else none := rfl
  rw [hunfold]
  rcases counted members with _ | ⟨a, _ | ⟨b, _ | ⟨c, rest⟩⟩⟩
  · simp
  · simp
  · cases ha : a.isNull <;> cases hb : b.isNull <;> simp [ha, hb]
  · simp

theorem OrNull.nullableMember? {single : TypeNode} (hornull : OrNull single members) :
    nullableMember? members = some single := by
  obtain ⟨hvariant, null, hnull, hperm⟩ := hornull
  have hsingle : single.isNull = false := by
    simpa using (Bool.and_eq_true_iff.mp hvariant).1
  have hlength : (counted members).length = 2 := hperm.length_eq
  have hcount : (counted members).countP isNull = 1 := by
    rw [hperm.countP_eq]
    simp [hsingle, hnull]
  have hsome := (isSome_nullableMember? members).mpr ⟨hlength, hcount⟩
  obtain ⟨member, hmember⟩ := Option.isSome_iff_exists.mp hsome
  have hfound : (counted members).find? (fun m => !m.isNull) = some member := by
    unfold TypeNode.nullableMember? at hmember
    dsimp only at hmember
    split at hmember
    next => exact hmember
    next => exact nomatch hmember
  have hmem : member ∈ [single, null] := hperm.mem_iff.mp (List.mem_of_find?_eq_some hfound)
  have hnot : member.isNull = false := by simpa using List.find?_some hfound
  rcases List.mem_pair.mp hmem with rfl | rfl
  · exact hmember
  · exact absurd (hnull.symm.trans hnot) (by simp)

end TypeNode

namespace Resolving

variable {settings : Settings} {owner : Owner} {address : Address} {known : Knowledge}

theorem convertNullable_of_find? {made : Option TypeRef} {members : List TypeNode}
    {member : TypeNode} (hfound : members.find? TypeNode.isVariant = some member) :
    convertNullable settings owner address made members =
      convert settings owner address .inner false made member := by
  induction members with
  | nil => exact nomatch hfound
  | cons first rest ih =>
      rw [convertNullable]
      rw [List.find?_cons] at hfound
      split
      next hvariant =>
        obtain rfl : first = member := by simpa [hvariant] using hfound
        rfl
      next hvariant => exact ih (by simpa [hvariant] using hfound)

/-- Where nothing replaces a type and it has not been resolved, it is derived. -/
theorem outcome_resolveType_of_fresh {node : TypeNode}
    (hoverride : settings.override? owner.path = .ok none)
    (hfresh : known.resolved.lookup address = none) :
    outcome (resolveType settings owner address node) known =
      match outcome (convert settings owner address .outer false none node) known with
      | (.ok (ref, _), after) =>
        (.ok ref, { after with resolved := (address, ref) :: after.resolved })
      | (.error failure, after) => (.error failure, after) := by
  have hreplaced : replacement? settings owner.path node.expression = .ok none := by
    simp [replacement?, hoverride, bind, Except.bind, pure, Except.pure]
  have hfree : outcome (resolveType settings owner address node) known = _ :=
    outcome_resolveType_of_free hfresh
  rw [hreplaced] at hfree
  exact hfree

/-- Replaced types that nothing can be looked up among let no fresh type be resolved. -/
theorem outcome_resolveType_of_unreadable {node : TypeNode} {failure : Failure}
    (hoverride : settings.override? owner.path = .error failure)
    (hfresh : known.resolved.lookup address = none) :
    outcome (resolveType settings owner address node) known = (.error failure, known) := by
  have hreplaced : replacement? settings owner.path node.expression = .error failure := by
    simp [replacement?, hoverride, bind, Except.bind]
  rw [outcome_resolveType_of_free hfresh, hreplaced]

variable {single nullable : TypeNode} {path : Text} {members : List TypeNode}

/-- A type that is, promises aside, a union of one type and null is converted by that part
of it, and the result is nullable. -/
theorem convert_of_nullablePart? {node part : TypeNode}
    (hpart : node.withoutPromise.nullablePart? = some part) :
    convert settings owner address .outer false none node =
      (do
        let result ← convert settings owner address .inner false none part
        pure (result.1.asNullable, result.2)) := by
  rw [convert_withoutPromise]
  generalize node.withoutPromise = whole at hpart ⊢
  cases whole with
  | union name path members =>
      rw [TypeNode.nullablePart?] at hpart
      split at hpart
      next hname =>
        subst hname
        have hfound := TypeNode.find?_isVariant_of_nullableMember? hpart
        rw [convert]
        simp only [ne_eq, not_true_eq_false, if_false, hpart, Option.isSome_some, if_true]
        rw [convertNullable_of_find? hfound]
      next => cases hpart
  | _ => cases hpart

/-- A nullable union is converted like the one type in it. -/
theorem convert_nullable (hunion : nullable.withoutPromise = .union "" path members)
    (hornull : TypeNode.OrNull single members)
    (hwhole : single.withoutPromise.isAnonymousUnion = false) :
    convert settings owner address .outer false none nullable =
      (do
        let result ← convert settings owner address .outer false none single
        pure (result.1.asNullable, result.2)) := by
  have hpart : nullable.withoutPromise.nullablePart? = some single := by
    rw [hunion, TypeNode.nullablePart?_union]
    exact hornull.nullableMember?
  rw [convert_of_nullablePart? hpart, convert_outer_eq_inner false none hwhole]

/-- At one address the union and the one type in it have the same outcome, but that the
reference is nullable. -/
theorem resolveType_nullable (hoverride : ∀ o, settings.override? owner.path ≠ .ok (some o))
    (hunion : nullable.withoutPromise = .union "" path members)
    (hornull : TypeNode.OrNull single members)
    (hwhole : single.withoutPromise.isAnonymousUnion = false)
    (hfresh : known.resolved.lookup address = none) :
    let alone := outcome (resolveType settings owner address single) known
    let orNull := outcome (resolveType settings owner address nullable) known
    orNull.1 = alone.1.map TypeRef.asNullable ∧ orNull.2.catalogue = alone.2.catalogue := by
  intro alone orNull
  cases hfound : settings.override? owner.path with
  | error failure =>
      have halone : alone = _ := outcome_resolveType_of_unreadable hfound hfresh
      have hnull : orNull = _ := outcome_resolveType_of_unreadable hfound hfresh
      rw [halone, hnull]
      exact ⟨rfl, rfl⟩
  | ok found =>
      cases found with
      | some override => exact absurd hfound (hoverride override)
      | none =>
          have halone : alone = _ := outcome_resolveType_of_fresh hfound hfresh
          have hnull : orNull = _ := outcome_resolveType_of_fresh hfound hfresh
          rw [convert_nullable hunion hornull hwhole, outcome_bind] at hnull
          rw [halone, hnull]
          rcases outcome (convert settings owner address .outer false none single) known with
            ⟨failure | ⟨ref, made⟩, after⟩ <;> exact ⟨rfl, rfl⟩

/-- A union of one type and null, bare functions aside, is resolved like that type, wherever
each of them stands: to the nullable reference, with the same types registered, or with
the same failure, up to which at one address the same types are registered, too. -/
theorem resolve_nullable {address' : Address}
    (hoverride : ∀ o, settings.override? owner.path ≠ .ok (some o))
    (hunion : nullable.withoutPromise = .union "" path members)
    (hornull : TypeNode.OrNull single members)
    (hwhole : single.withoutPromise.isAnonymousUnion = false)
    (hclear : known.Clear address) (hclear' : known.Clear address') :
    let alone := outcome (resolve settings owner address (some single)) known
    let orNull := outcome (resolve settings owner address' (some nullable)) known
    orNull.1 = alone.1.map TypeRef.asNullable ∧
      (alone.1.isOk = true ∨ address' = address →
        orNull.2.catalogue = alone.2.catalogue) := by
  intro alone orNull
  let there := outcome (resolve settings owner address' (some single)) known
  obtain ⟨hresult, hcatalogue⟩ : orNull.1 = there.1.map TypeRef.asNullable ∧
      orNull.2.catalogue = there.2.catalogue :=
    resolveType_nullable hoverride hunion hornull hwhole hclear'.lookup
  have halike : Alike (Twins address address') alone there :=
    parallel_resolve ⟨fun _ => rfl, fun _ => rfl⟩ [] (some single) owner known known
      (.of_clear rfl hclear hclear')
  refine ⟨by rw [hresult, halike.result], ?_⟩
  rw [hcatalogue]
  rintro (hok | rfl)
  · obtain ⟨ref, href⟩ := exists_of_isOk hok
    have hended : alone = (.ok ref, alone.2) := Prod.ext href rfl
    rw [hended] at halike
    obtain ⟨after, hthere, htwins⟩ := halike.exists_ok
    rw [hthere]
    exact htwins.catalogue
  · rfl

/-! ## A size or nothing -/

def sizeOwner : Owner := ⟨"Page.size", .method, "size", "Page", "Page"⟩

/-- A record with a width. -/
def sizeRecord : TypeNode :=
  .record "Page.size"
    [⟨"width", "Page.size.width", .primitive "int" "Page.size.width", true, .str []⟩]

def promiseOf (type : TypeNode) : TypeNode := .generic "Promise" "Page.size" [type]

/-- Nothing, a function without arguments, or a promise of such a record. -/
def sizeOrNothing : List TypeNode :=
  [.primitive "null" "Page.size", .bareFunction "Page.size" none, promiseOf sizeRecord]

theorem orNull_sizeOrNothing : TypeNode.OrNull (promiseOf sizeRecord) sizeOrNothing where
  variant := rfl
  members := ⟨.primitive "null" "Page.size", rfl, List.Perm.swap _ _ _⟩

theorem resolve_nullable_size :
    let alone := outcome (resolve .defaults sizeOwner [0] (some (promiseOf sizeRecord))) .empty
    let orNull := outcome (resolve .defaults sizeOwner [1]
      (some (promiseOf (.union "" "Page.size" sizeOrNothing)))) .empty
    alone.1.isOk = true ∧ orNull.1 = alone.1.map TypeRef.asNullable ∧
      orNull.2.catalogue = alone.2.catalogue := by
  intro alone orNull
  have hclear : ∀ address, Knowledge.empty.Clear address := fun _ _ hentry => nomatch hentry
  have hok : alone.1.isOk = true := by decide +kernel
  have hboth : orNull.1 = alone.1.map TypeRef.asNullable ∧
      (alone.1.isOk = true ∨ ([1] : Address) = [0] →
        orNull.2.catalogue = alone.2.catalogue) :=
    resolve_nullable (fun _ hfound => nomatch hfound) rfl orNull_sizeOrNothing rfl
      (hclear [0]) (hclear [1])
  exact ⟨hok, hboth.1, hboth.2 (.inl hok)⟩

end Resolving
end ApiBindings
