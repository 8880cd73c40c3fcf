import ApiBindings.Proofs.Surface.Mirror
/-!
# The turns of members

Members are declared one after the other, and what one of them makes known stays known.
It is the turn of a member when the interfaces before its own and the members before it
in its interface have been declared.  Nothing is remembered of its types then, since
what is remembered lies at the addresses of those before it.  A member that fails at its
turn fails the whole run, and an accepted run gives each member its turn.
-/

namespace ApiBindings
namespace Surface

open Resolving (outcome outcome_bind outcome_pure outcome_ofExcept outcome_bind_ok
  outcome_get_bind outcome_ofExcept_bind_ok ClearFrom)

/-- In a run of a description, this is known when it is the turn of this member of this
interface. -/
structure Turn (settings : Settings) (interfaces : List ApiBindings.Interface) (i j : Nat)
    (interface : ApiBindings.Interface) (member : Member) (known : Knowledge) : Prop where
  interfaceAt : interfaces[i]? = some interface
  memberAt : interface.members[j]? = some member
  supertypes : ∃ types, Surface.supertypes settings interface = .ok types
  before : ∃ declared start own,
    outcome (declareInterfaces settings 0 (interfaces.take i)) .empty = (.ok declared, start) ∧
    outcome (declareMembers settings interface [i] 0 (interface.members.take j)) start =
      (.ok own, known)

/-! ## What is remembered -/

section

variable {settings : Settings} {interface : ApiBindings.Interface} {member : Member}
  {address : Address} {known middle after : Knowledge} {position index : Nat}
  {failure : Failure}

theorem declareMembers_clearFrom {members : List Member}
    {result : List Listener × List Overload} (hclear : ClearFrom address position known)
    (hrun : outcome (declareMembers settings interface address position members) known =
      (.ok result, after)) : ClearFrom address (position + members.length) after := by
  induction members generalizing position known result with
  | nil =>
      obtain ⟨-, rfl⟩ : _ ∧ known = after := by simpa [declareMembers] using hrun
      exact hclear
  | cons member rest ih =>
      obtain ⟨own, middle, others, hown, hothers, -⟩ := declareMembers_cons_ok hrun
      have hkept : ClearFrom address (position + 1)
          (outcome (declareMember settings interface (position :: address) member) known).2 :=
        declareMember_clearFrom hclear.succ
      rw [hown] at hkept
      have hrest := ih hkept hothers
      rwa [List.length_cons, Nat.add_comm rest.length 1, ← Nat.add_assoc]

/-- What an interface makes known lies at its own address. -/
theorem declareInterface_clearFrom (hclear : ClearFrom address (position + 1) known) :
    ClearFrom address (position + 1)
      (outcome (declareInterface settings (position :: address) interface) known).2 := by
  have hsuits : ∀ index, (Resolving.untouchedContract settings []
      fun other => ∃ p, position + 1 ≤ p ∧ other = p :: address).SuitsMember interface
        (index :: position :: address) := by
    rintro index owner index' -
    refine ⟨by simp, ?_⟩
    rintro _ ⟨p, hp, rfl⟩
    exact ((Address.apart_of_ne (by omega) address).property index).property index'
  exact (Resolving.Contract.meets_declareInterface hsuits ⟨by simp, hclear⟩).keeps.memory

theorem declareInterfaces_clearFrom {interfaces : List ApiBindings.Interface}
    {declared : List Interface} (hclear : ClearFrom [] position known)
    (hrun : outcome (declareInterfaces settings position interfaces) known =
      (.ok declared, after)) : ClearFrom [] (position + interfaces.length) after := by
  induction interfaces generalizing position known declared with
  | nil =>
      obtain ⟨-, rfl⟩ : _ ∧ known = after := by simpa [declareInterfaces] using hrun
      exact hclear
  | cons interface rest ih =>
      obtain ⟨first, others, middle, rfl, hfirst, hothers⟩ := declareInterfaces_cons_ok hrun
      have hkept : ClearFrom [] (position + 1)
          (outcome (declareInterface settings [position] interface) known).2 :=
        declareInterface_clearFrom hclear.succ
      rw [hfirst] at hkept
      have hrest := ih hkept hothers
      rwa [List.length_cons, Nat.add_comm rest.length 1, ← Nat.add_assoc]

theorem clearFrom_empty : ClearFrom [] 0 Knowledge.empty :=
  .of_clear fun _ hentry => nomatch hentry

/-- When it is the turn of a member, nothing is remembered of its types. -/
theorem Turn.clear {interfaces : List ApiBindings.Interface} {i j : Nat}
    (hturn : Turn settings interfaces i j interface member known) : known.Clear [j, i] := by
  obtain ⟨declared, start, own, hinterfaces, hmembers⟩ := hturn.before
  have hi : (interfaces.take i).length = i :=
    List.length_take_of_le (List.getElem?_eq_some_iff.mp hturn.interfaceAt).1.le
  have hj : (interface.members.take j).length = j :=
    List.length_take_of_le (List.getElem?_eq_some_iff.mp hturn.memberAt).1.le
  have hstart := declareInterfaces_clearFrom clearFrom_empty hinterfaces
  rw [Nat.zero_add, hi] at hstart
  have hknown := declareMembers_clearFrom (.of_clear hstart.here) hmembers
  rw [Nat.zero_add, hj] at hknown
  exact hknown.here

/-! ## Runs -/

theorem declareMembers_error {members : List Member} {own : List Listener × List Overload}
    (hat : members[index]? = some member)
    (hbefore : outcome
      (declareMembers settings interface address position (members.take index)) known =
        (.ok own, middle))
    (hfails : outcome
      (declareMember settings interface ((position + index) :: address) member) middle =
        (.error failure, after)) :
    outcome (declareMembers settings interface address position members) known =
      (.error failure, after) := by
  induction members generalizing index position known own with
  | nil => simp at hat
  | cons first rest ih =>
      rw [declareMembers_cons, outcome_bind]
      cases index with
      | zero =>
          obtain rfl : first = member := by simpa using hat
          obtain ⟨-, rfl⟩ : _ ∧ known = middle := by simpa [declareMembers] using hbefore
          rw [Nat.add_zero] at hfails
          rw [hfails]
      | succ index =>
          rw [List.take_succ_cons] at hbefore
          obtain ⟨own, next, others, hown, hothers, -⟩ := declareMembers_cons_ok hbefore
          rw [← Nat.add_assoc, Nat.add_right_comm] at hfails
          have hrest := ih (by simpa using hat) hothers hfails
          simp only [hown, outcome_bind, hrest]

theorem declareInterfaces_error {interfaces : List ApiBindings.Interface}
    {declared : List Interface} (hat : interfaces[index]? = some interface)
    (hbefore : outcome (declareInterfaces settings position (interfaces.take index)) known =
      (.ok declared, middle))
    (hfails : outcome (declareInterface settings [position + index] interface) middle =
      (.error failure, after)) :
    outcome (declareInterfaces settings position interfaces) known =
      (.error failure, after) := by
  induction interfaces generalizing index position known declared with
  | nil => simp at hat
  | cons first rest ih =>
      rw [declareInterfaces, outcome_bind]
      cases index with
      | zero =>
          obtain rfl : first = interface := by simpa using hat
          obtain ⟨-, rfl⟩ : _ ∧ known = middle := by simpa [declareInterfaces] using hbefore
          rw [Nat.add_zero] at hfails
          rw [hfails]
      | succ index =>
          rw [List.take_succ_cons] at hbefore
          obtain ⟨_, _, next, -, hfirst, hothers⟩ := declareInterfaces_cons_ok hbefore
          rw [← Nat.add_assoc, Nat.add_right_comm] at hfails
          have hrest := ih (by simpa using hat) hothers hfails
          simp only [hfirst, outcome_bind, hrest]

/-- A method that fails at its turn fails the run. -/
theorem Turn.declare_error {interfaces : List ApiBindings.Interface} {i j : Nat}
    (hturn : Turn settings interfaces i j interface member known)
    (hkind : member.kind ≠ .event)
    (hfails : outcome (declareMethod settings interface [j, i] member) known =
      (.error failure, after)) : declare settings interfaces = .error failure := by
  obtain ⟨declared, start, own, hinterfaces, hmembers⟩ := hturn.before
  obtain ⟨types, htypes⟩ := hturn.supertypes
  have hmember : outcome (declareMember settings interface [0 + j, i] member) known =
      (.error failure, after) := by
    rw [declareMember_eq hkind, Nat.zero_add, outcome_bind, hfails]
  have hinterface : outcome (declareInterface settings [0 + i] interface) start =
      (.error failure, after) := by
    unfold declareInterface
    rw [outcome_bind, outcome_ofExcept, htypes, Nat.zero_add]
    dsimp only
    rw [outcome_bind, declareMembers_error hturn.memberAt hmembers hmember]
  have hall := declareInterfaces_error hturn.interfaceAt hinterfaces hinterface
  have hrun : outcome (declaring settings interfaces) .empty = (.error failure, after) := by
    unfold declaring
    rw [outcome_bind, hall]
  exact (Prod.ext_iff.mp hrun).1

/-- In an accepted run each method has its turn, and its overloads are declared. -/
theorem exists_turn {interfaces : List ApiBindings.Interface} {surface : Surface} {i j : Nat}
    (haccepted : declare settings interfaces = .ok surface)
    (hinterface : interfaces[i]? = some interface)
    (hmember : interface.members[j]? = some member) (hkind : member.kind ≠ .event) :
    ∃ known after derived declared,
      Turn settings interfaces i j interface member known ∧
      outcome (declareMethod settings interface [j, i] member) known = (.ok derived, after) ∧
      surface.interfaces[i]? = some declared ∧ derived <:+: declared.methods := by
  obtain ⟨_, hrun, -, -⟩ := declare_ok haccepted
  obtain ⟨before, start, declared, _, hbefore, hrun, hdeclared⟩ :=
    declareInterfaces_reaches hinterface hrun
  obtain ⟨-, -, hsupertypes, hmembers, -⟩ := declareInterface_ok hrun
  obtain ⟨earlier, known, own, last, hearlier, hown, hinfix⟩ :=
    declareMembers_reaches hmember hmembers
  simp only [Nat.zero_add] at hearlier hown
  exact ⟨known, last, own.2, declared,
    ⟨hinterface, hmember, ⟨_, hsupertypes⟩, before, start, earlier, hbefore, hearlier⟩,
    declareMethod_of_declareMember hkind hown, hdeclared, hinfix⟩

end

end Surface
end ApiBindings
