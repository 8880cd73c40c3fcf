import ApiBindings.Surface.Declaration
import ApiBindings.Proofs.Resolution.Run
/-!
# Runs of declaring

What a run that declares an API consists of: the runs for its interfaces, those
for their members, and, for a member, the resolution of its types.  Each of
these starts from what is known after the one before it.
-/

namespace ApiBindings
namespace Surface

open Resolving (outcome outcome_bind outcome_pure outcome_get outcome_ofExcept
  outcome_bind_ok outcome_get_bind outcome_ofExcept_bind_ok)

variable {settings : Settings} {known after : Knowledge}

/-- The interfaces are declared first; the classes and enums are those known at
the end. -/
theorem declare_ok {interfaces : List ApiBindings.Interface} {surface : Surface}
    (haccepted : declare settings interfaces = .ok surface) :
    ∃ known, outcome (declareInterfaces settings 0 interfaces) .empty =
        (.ok surface.interfaces, known) ∧
      classesOf known.catalogue known.catalogue.globalClasses = .ok surface.classes ∧
      surface.enums = known.catalogue.globalEnums := by
  have hrun : outcome (declaring settings interfaces) .empty =
      (.ok surface, (outcome (declaring settings interfaces) .empty).2) :=
    Prod.ext haccepted rfl
  unfold declaring at hrun
  obtain ⟨declared, known, hinterfaces, hrun⟩ := outcome_bind_ok hrun
  rw [outcome_get_bind] at hrun
  obtain ⟨classes, hclasses, hrun⟩ := outcome_ofExcept_bind_ok hrun
  obtain ⟨rfl, -⟩ : _ = surface ∧ _ := by simpa using hrun
  exact ⟨known, hinterfaces, hclasses, rfl⟩

theorem declare_run {interfaces : List ApiBindings.Interface} {declared : List Interface}
    {classes : List Class}
    (hinterfaces : outcome (declareInterfaces settings 0 interfaces) .empty =
      (.ok declared, known))
    (hclasses : classesOf known.catalogue known.catalogue.globalClasses = .ok classes) :
    declare settings interfaces =
      .ok ⟨declared, classes, known.catalogue.globalEnums, []⟩ := by
  have hrun : outcome (declaring settings interfaces) .empty =
      (.ok ⟨declared, classes, known.catalogue.globalEnums, []⟩, known) := by
    unfold declaring
    simp only [outcome_bind, hinterfaces, outcome_get, outcome_ofExcept, hclasses,
      outcome_pure]
  exact (Prod.ext_iff.mp hrun).1

theorem declareInterfaces_cons_ok {position : Nat}
    {interface : ApiBindings.Interface} {rest : List ApiBindings.Interface}
    {declared : List Interface}
    (hrun : outcome (declareInterfaces settings position (interface :: rest)) known =
      (.ok declared, after)) :
    ∃ first others middle, declared = first :: others ∧
      outcome (declareInterface settings [position] interface) known =
        (.ok first, middle) ∧
      outcome (declareInterfaces settings (position + 1) rest) middle =
        (.ok others, after) := by
  unfold declareInterfaces at hrun
  obtain ⟨first, middle, hfirst, hrun⟩ := outcome_bind_ok hrun
  obtain ⟨others, after, hothers, hrun⟩ := outcome_bind_ok hrun
  obtain ⟨rfl, rfl⟩ : _ = declared ∧ after = _ := by simpa using hrun
  exact ⟨first, others, middle, rfl, hfirst, hothers⟩

/-- The members of an interface are declared first; its nested classes are
those known then. -/
theorem declareInterface_ok {address : Address} {interface : ApiBindings.Interface}
    {declared : Interface}
    (hrun : outcome (declareInterface settings address interface) known =
      (.ok declared, after)) :
    declared.name = interface.name ∧ declared.comment = interface.comment ∧
      supertypes settings interface = .ok declared.supertypes ∧
      outcome (declareMembers settings interface address 0 interface.members) known =
        (.ok (declared.listeners, declared.methods), after) ∧
      classesOf after.catalogue (after.catalogue.localClasses interface.name) =
        .ok declared.nestedClasses := by
  unfold declareInterface at hrun
  obtain ⟨supertypes, hsupertypes, hrun⟩ := outcome_ofExcept_bind_ok hrun
  obtain ⟨⟨listeners, methods⟩, middle, hmembers, hrun⟩ := outcome_bind_ok hrun
  rw [outcome_get_bind] at hrun
  obtain ⟨nested, hnested, hrun⟩ := outcome_ofExcept_bind_ok hrun
  obtain ⟨rfl, rfl⟩ : _ = declared ∧ middle = after := by simpa using hrun
  exact ⟨rfl, rfl, hsupertypes, hmembers, hnested⟩

theorem declareInterface_run {address : Address} {interface : ApiBindings.Interface}
    {supertypes : List Json} {listeners : List Listener} {methods : List Overload}
    {nestedClasses : List Class}
    (hsupertypes : Surface.supertypes settings interface = .ok supertypes)
    (hmembers : outcome
        (declareMembers settings interface address 0 interface.members) known =
      (.ok (listeners, methods), after))
    (hnested : classesOf after.catalogue (after.catalogue.localClasses interface.name) =
      .ok nestedClasses) :
    outcome (declareInterface settings address interface) known =
      (.ok ⟨interface.name, interface.comment, supertypes, listeners, methods,
        nestedClasses⟩, after) := by
  unfold declareInterface
  simp only [outcome_bind, outcome_ofExcept, hsupertypes, hmembers, outcome_get, hnested,
    outcome_pure]

theorem declareMethod_ok {interface : ApiBindings.Interface} {address : Address}
    {member : Member} {derived : List Overload}
    (hsignatures : settings.signatures member.path = .ok .derived)
    (hrun : outcome (declareMethod settings interface address member) known =
      (.ok derived, after)) :
    ∃ returnType middle params,
      outcome (resolve settings (memberOwner interface member .method) (0 :: address)
        member.type) known = (.ok returnType, middle) ∧
      outcome (resolveParams settings interface member address 1 member.params) middle =
        (.ok params, after) ∧
      overloads (.of member) returnType params = .ok derived := by
  unfold declareMethod at hrun
  obtain ⟨signatures, hgiven, hrun⟩ := outcome_ofExcept_bind_ok hrun
  obtain rfl : Settings.Signatures.derived = signatures := by
    simpa [hsignatures] using hgiven
  obtain ⟨returnType, middle, hresult, hrun⟩ := outcome_bind_ok hrun
  obtain ⟨params, last, hparams, hrun⟩ := outcome_bind_ok hrun
  obtain ⟨hderived, rfl⟩ :
      overloads (.of member) returnType params = .ok derived ∧ last = after := by
    simpa using hrun
  exact ⟨returnType, middle, params, hresult, hparams, hderived⟩

/-! ## Members, one by one -/

/-- The listener or the overloads of one member. -/
def declareMember (settings : Settings) (interface : ApiBindings.Interface)
    (address : Address) (member : Member) : Resolving (List Listener × List Overload) :=
  match member.kind with
  | .event => do
    let type ← resolve settings (memberOwner interface member .event) (0 :: address) member.type
    let listener ← Resolving.ofExcept (Listener.of (.of member) type)
    pure ([listener], [])
  | _ => do
    let methods ← declareMethod settings interface address member
    pure ([], methods)

section

variable {interface : ApiBindings.Interface} {address : Address} {position index : Nat}
  {member : Member}

theorem declareMember_eq (hkind : member.kind ≠ .event) :
    declareMember settings interface address member =
      (do
        let methods ← declareMethod settings interface address member
        pure ([], methods)) := by
  unfold declareMember
  split
  next hevent => exact absurd hevent hkind
  next => rfl

theorem declareMethod_of_declareMember {own : List Listener × List Overload}
    (hkind : member.kind ≠ .event)
    (hrun : outcome (declareMember settings interface address member) known =
      (.ok own, after)) :
    outcome (declareMethod settings interface address member) known = (.ok own.2, after) := by
  rw [declareMember_eq hkind] at hrun
  obtain ⟨methods, middle, hmethods, hpure⟩ := outcome_bind_ok hrun
  obtain ⟨rfl, rfl⟩ : ([], methods) = own ∧ middle = after := by simpa using hpure
  exact hmethods

theorem declareMembers_cons (settings : Settings) (interface : ApiBindings.Interface)
    (address : Address) (position : Nat) (member : Member) (rest : List Member) :
    declareMembers settings interface address position (member :: rest) =
      (do
        let own ← declareMember settings interface (position :: address) member
        let others ← declareMembers settings interface address (position + 1) rest
        pure (own.1 ++ others.1, own.2 ++ others.2)) := by
  conv_lhs => rw [declareMembers]
  unfold declareMember
  cases member.kind <;> simp only [bind_assoc, pure_bind]

theorem declareMembers_cons_ok {rest : List Member}
    {result : List Listener × List Overload}
    (hrun : outcome
        (declareMembers settings interface address position (member :: rest)) known =
      (.ok result, after)) :
    ∃ own middle others,
      outcome (declareMember settings interface (position :: address) member) known =
        (.ok own, middle) ∧
      outcome (declareMembers settings interface address (position + 1) rest) middle =
        (.ok others, after) ∧ result = (own.1 ++ others.1, own.2 ++ others.2) := by
  rw [declareMembers_cons] at hrun
  obtain ⟨own, middle, hown, hrun⟩ := outcome_bind_ok hrun
  obtain ⟨others, last, hothers, hrun⟩ := outcome_bind_ok hrun
  obtain ⟨hresult, rfl⟩ :
      (own.1 ++ others.1, own.2 ++ others.2) = result ∧ last = after := by
    simpa using hrun
  exact ⟨own, middle, others, hown, hothers, hresult.symm⟩

/-! ## Runs up to a position -/

/-- Every interface is declared after those before it. -/
theorem declareInterfaces_reaches {interfaces : List ApiBindings.Interface}
    {declared : List Interface} (hat : interfaces[index]? = some interface)
    (hrun : outcome (declareInterfaces settings position interfaces) known =
      (.ok declared, after)) :
    ∃ before start own last,
      outcome (declareInterfaces settings position (interfaces.take index)) known =
        (.ok before, start) ∧
      outcome (declareInterface settings [position + index] interface) start =
        (.ok own, last) ∧ declared[index]? = some own := by
  induction interfaces generalizing index position known declared with
  | nil => simp at hat
  | cons first rest ih =>
      obtain ⟨own, others, middle, rfl, hown, hothers⟩ := declareInterfaces_cons_ok hrun
      cases index with
      | zero =>
          obtain rfl : first = interface := by simpa using hat
          exact ⟨[], known, own, middle, rfl, hown, rfl⟩
      | succ index =>
          obtain ⟨before, start, mine, last, hbefore, hmine, hmember⟩ :=
            ih (by simpa using hat) hothers
          rw [Nat.add_assoc, Nat.add_comm 1 index] at hmine
          refine ⟨own :: before, start, mine, last, ?_, hmine, by simpa using hmember⟩
          rw [List.take_succ_cons, declareInterfaces, outcome_bind, hown]
          dsimp only
          rw [outcome_bind, hbefore]
          rfl

/-- Every member is declared after those before it, and adds to the methods of its
interface. -/
theorem declareMembers_reaches {members : List Member}
    {result : List Listener × List Overload} (hat : members[index]? = some member)
    (hrun : outcome (declareMembers settings interface address position members) known =
      (.ok result, after)) :
    ∃ before middle own last,
      outcome (declareMembers settings interface address position (members.take index))
        known = (.ok before, middle) ∧
      outcome (declareMember settings interface ((position + index) :: address) member)
        middle = (.ok own, last) ∧ own.2 <:+: result.2 := by
  induction members generalizing index position known result with
  | nil => simp at hat
  | cons first rest ih =>
      obtain ⟨own, middle, others, hown, hothers, rfl⟩ := declareMembers_cons_ok hrun
      cases index with
      | zero =>
          obtain rfl : first = member := by simpa using hat
          exact ⟨([], []), known, own, middle, rfl, hown, (List.prefix_append _ _).isInfix⟩
      | succ index =>
          obtain ⟨before, next, mine, last, hbefore, hmine, hinfix⟩ :=
            ih (by simpa using hat) hothers
          rw [Nat.add_assoc, Nat.add_comm 1 index] at hmine
          refine ⟨(own.1 ++ before.1, own.2 ++ before.2), next, mine, last, ?_, hmine,
            hinfix.trans (List.suffix_append _ _).isInfix⟩
          rw [List.take_succ_cons, declareMembers_cons, outcome_bind, hown]
          dsimp only
          rw [outcome_bind, hbefore]
          rfl

theorem declareInterfaces_at {interfaces : List ApiBindings.Interface}
    {declared : List Interface} (hat : interfaces[index]? = some interface)
    (hrun : outcome (declareInterfaces settings position interfaces) known =
      (.ok declared, after)) :
    ∃ before middle result, declared[index]? = some result ∧
      outcome (declareInterface settings [position + index] interface) before =
        (.ok result, middle) := by
  obtain ⟨_, start, own, last, -, hown, hdeclared⟩ := declareInterfaces_reaches hat hrun
  exact ⟨start, last, own, hdeclared, hown⟩

theorem declareMembers_at {members : List Member} {listeners : List Listener}
    {methods : List Overload} (hat : members[index]? = some member)
    (hkind : member.kind ≠ .event)
    (hrun : outcome (declareMembers settings interface address position members) known =
      (.ok (listeners, methods), after)) :
    ∃ before middle derived, derived <:+: methods ∧
      outcome (declareMethod settings interface ((position + index) :: address) member)
        before = (.ok derived, middle) := by
  obtain ⟨_, middle, own, last, -, hown, hinfix⟩ := declareMembers_reaches hat hrun
  exact ⟨middle, last, own.2, hinfix, declareMethod_of_declareMember hkind hown⟩

end

end Surface
end ApiBindings
