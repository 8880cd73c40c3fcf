import ApiBindings.Proofs.Resolution.Mirror
import ApiBindings.Proofs.Surface.Agreement
import ApiBindings.Proofs.Surface.Contract
import ApiBindings.Proofs.Surface.Run
/-!
# Declaring is mirrored

Where an interface is declared for the first time, nothing has been remembered
at the addresses of its types and it has no local classes.  From there a mirror
within the catalogue of the whole run derives the same listeners, overloads and
nested classes.  Only the setters of classes can differ: whether one can make
the value of a field depends on the classes known.
-/

namespace ApiBindings

open Surface
open Resolving (outcome outcome_bind_ok outcome_get_bind outcome_ofExcept_bind_ok Follows Same
  Mirrors Fresh FreshFrom Proper ClearFrom)

/-! ## Members -/

section
variable {settings : Settings} {full : Catalogue} {interface : ApiBindings.Interface}
  {address address' : Address}

theorem resolve_clearFrom {type : Option TypeNode} {owner : Owner} {position : Nat}
    {known : Knowledge} (hclear : ClearFrom address (position + 1) known) :
    ClearFrom address (position + 1)
      (outcome (resolve settings owner (position :: address) type) known).2 := by
  cases type with
  | none => exact hclear
  | some type => exact Resolving.resolveType_clearFrom hclear

theorem follows_resolveParams (hproper : Proper settings full) {member : Member}
    {position : Nat} {params : List (Slot TypeNode)} :
    Follows full (FreshFrom settings full interface.name address address' position)
      (resolveParams settings interface member address position params)
      (resolveParams settings interface member address' position params)
      (Same fun _ => Mirrors settings full interface.name) := by
  induction params generalizing position with
  | nil => exact .pure fun known known' h => ⟨rfl, h.1⟩
  | cons param rest ih =>
      unfold resolveParams
      have htype := Resolving.follows_resolveType hproper param.type
        (paramOwner interface member param) (position :: address) (position :: address')
      refine (htype.at_position (fun _ _ _ h => h.1) (fun _ => Resolving.resolveType_clearFrom)
        fun _ => Resolving.resolveType_clearFrom).bind_same fun type => ?_
      refine Follows.bind_same (M := fun _ => Mirrors settings full interface.name) ?_ ?_
      · exact (@ih (position + 1)).imp (fun _ _ h => h.2) fun _ _ _ _ h => h
      · exact fun others => .pure fun known known' hmirrors => ⟨rfl, hmirrors⟩

theorem follows_declareMethod (hproper : Proper settings full) {member : Member} :
    Follows full (Fresh settings full interface.name address address')
      (declareMethod settings interface address member)
      (declareMethod settings interface address' member)
      (Same fun _ => Mirrors settings full interface.name) := by
  unfold declareMethod
  refine .ofExcept_bind fun signatures _ => ?_
  split
  next => exact .pure fun known known' h => ⟨rfl, h.1⟩
  next =>
    have hresult := Resolving.follows_resolve hproper member.type
      (memberOwner interface member .method) (0 :: address) (0 :: address')
    refine Follows.bind_same (M := fun _ =>
      FreshFrom settings full interface.name address address' 1) ?_ ?_
    · refine (hresult.at_position (fun _ _ _ h => h.1) (fun _ => resolve_clearFrom)
        fun _ => resolve_clearFrom).imp ?_ ?_
      · rintro known known' ⟨hmirrors, hclear, hclear'⟩
        exact ⟨hmirrors, .of_clear hclear, .of_clear hclear'⟩
      · rintro returnType _ known known' ⟨rfl, -, hfresh⟩
        exact ⟨rfl, hfresh⟩
    · intro returnType
      refine (follows_resolveParams hproper).bind_same fun params => ?_
      split
      next => exact .pure fun known known' hmirrors => ⟨rfl, hmirrors⟩
      next => exact .throw
      next => exact .ofExcept fun derived known known' hmirrors => ⟨rfl, hmirrors⟩

/-- The members after this one are apart from it. -/
theorem suitsMember_after (interface : ApiBindings.Interface) {position : Nat} :
    (Resolving.untouchedContract settings []
      fun other => ∃ p, position + 1 ≤ p ∧ other = p :: address).SuitsMember interface
      (position :: address) := by
  rintro owner index -
  refine ⟨by simp, ?_⟩
  rintro _ ⟨p, hp, rfl⟩
  exact (Address.apart_of_ne (by omega) address).property index

theorem follows_declareMember (hproper : Proper settings full) {member : Member} :
    Follows full (Fresh settings full interface.name address address')
      (declareMember settings interface address member)
      (declareMember settings interface address' member)
      (Same fun _ => Mirrors settings full interface.name) := by
  unfold declareMember
  split
  next =>
    have htype := Resolving.follows_resolve hproper member.type
      (memberOwner interface member .event) (0 :: address) (0 :: address')
    refine Follows.bind_same (M := fun _ => Mirrors settings full interface.name) ?_ ?_
    · exact htype.imp (fun _ _ h => ⟨h.1, h.2.1.below 0, h.2.2.below 0⟩)
        fun _ _ _ _ h => ⟨h.1, h.2.1⟩
    · intro type
      refine .ofExcept_bind fun listener _ => ?_
      exact .pure fun known known' hmirrors => ⟨rfl, hmirrors⟩
  next =>
    refine (follows_declareMethod hproper).bind_same fun methods => ?_
    exact .pure fun known known' hmirrors => ⟨rfl, hmirrors⟩

theorem declareMember_clearFrom {member : Member} {position : Nat} {known : Knowledge}
    (hclear : ClearFrom address (position + 1) known) :
    ClearFrom address (position + 1)
      (outcome (declareMember settings interface (position :: address) member) known).2 :=
  (Resolving.Contract.meets_declareMember (suitsMember_after _) ⟨by simp, hclear⟩).keeps.memory

theorem follows_declareMembers (hproper : Proper settings full) {position : Nat}
    {members : List Member} :
    Follows full (FreshFrom settings full interface.name address address' position)
      (declareMembers settings interface address position members)
      (declareMembers settings interface address' position members)
      (Same fun _ => Mirrors settings full interface.name) := by
  induction members generalizing position with
  | nil => exact .pure fun known known' h => ⟨rfl, h.1⟩
  | cons member rest ih =>
      rw [declareMembers_cons, declareMembers_cons]
      refine Follows.bind_same (M := fun _ =>
        FreshFrom settings full interface.name address address' (position + 1)) ?_ ?_
      · exact ((follows_declareMember hproper).at_position (fun _ _ _ h => h)
          (fun _ => declareMember_clearFrom) fun _ => declareMember_clearFrom).imp
            (fun _ _ h => h) fun _ _ _ _ h => ⟨h.1, h.2.2⟩
      · intro own
        refine ih.bind_same fun others => ?_
        exact .pure fun known known' hmirrors => ⟨rfl, hmirrors⟩

end

/-! ## One interface -/

/-- The same declaration, its nested classes without setters. -/
def Surface.Interface.withoutBuilders (declared : Surface.Interface) : Surface.Interface :=
  { declared with nestedClasses := declared.nestedClasses.map Class.withoutBuilders }

/-- The interface is declared like this somewhere in a run that ends with a catalogue,
where nothing of the interface was known. -/
def Declared (settings : Settings) (full : Catalogue) (interface : ApiBindings.Interface)
    (declared : Surface.Interface) : Prop :=
  ∃ position before after,
    outcome (declareInterface settings [position] interface) before = (.ok declared, after) ∧
      before.Clear [position] ∧ before.catalogue.localClasses interface.name = [] ∧
      after.catalogue.GrowsTo full

section
variable {settings : Settings} {full : Catalogue} {interface : ApiBindings.Interface}
  {declared : Surface.Interface}

/-- Declaring an interface once more, its members are the same. -/
theorem Declared.exists_declareMembers (hproper : Proper settings full)
    (hdeclared : Declared settings full interface declared) {position : Nat}
    {known : Knowledge} (hwithin : known.Within settings full)
    (hclear : known.Clear [position])
    (hlocals : known.catalogue.localClasses interface.name = []) :
    ∃ catalogue after,
      classesOf catalogue (after.catalogue.localClasses interface.name) =
        .ok declared.nestedClasses ∧
      outcome (declareMembers settings interface [position] 0 interface.members) known =
        (.ok (declared.listeners, declared.methods), after) ∧
      after.Within settings full := by
  obtain ⟨position', before, last, hrun, hclear', hlocals', hfull⟩ := hdeclared
  obtain ⟨-, -, -, hmembers, hnested⟩ := declareInterface_ok hrun
  have hmirrors : Mirrors settings full interface.name before known :=
    ⟨hwithin, hlocals'.trans hlocals.symm⟩
  obtain ⟨_, after, hrun', rfl, hmirrors⟩ := (follows_declareMembers hproper).follows
    ⟨hmirrors, .of_clear hclear', .of_clear hclear⟩ hmembers hfull
  exact ⟨last.catalogue, after, hmirrors.locals ▸ hnested, hrun', hmirrors.within⟩

/-- Declaring an interface once more, all but the setters of its nested classes is the
same. -/
theorem Declared.exists_declareInterface (hproper : Proper settings full)
    (hfieldable : ∀ known : Knowledge, known.Within settings full → Fieldable known.catalogue)
    (hdeclared : Declared settings full interface declared) {position : Nat}
    {known : Knowledge} (hwithin : known.Within settings full)
    (hclear : known.Clear [position])
    (hlocals : known.catalogue.localClasses interface.name = []) :
    ∃ declared' after,
      outcome (declareInterface settings [position] interface) known =
        (.ok declared', after) ∧
      declared'.withoutBuilders = declared.withoutBuilders ∧ after.Within settings full := by
  obtain ⟨catalogue, after, hnested, hmembers, hwithin⟩ :=
    hdeclared.exists_declareMembers hproper hwithin hclear hlocals
  obtain ⟨nested, hnested', hsame⟩ := exists_classesOf_again (hfieldable after hwithin) hnested
  obtain ⟨position', before, last, hrun, -⟩ := hdeclared
  obtain ⟨hname, hcomment, hsupertypes, -⟩ := declareInterface_ok hrun
  refine ⟨_, after, declareInterface_run hsupertypes hmembers hnested', ?_, hwithin⟩
  simp only [Surface.Interface.withoutBuilders, hsame, hname, hcomment]

end
end ApiBindings
