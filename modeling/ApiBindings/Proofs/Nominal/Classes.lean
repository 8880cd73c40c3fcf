import ApiBindings.Proofs.Nominal.Agreement
import ApiBindings.Proofs.Nominal.Growth
/-!
# The classes of a catalogue

Global and local classes are looked up alike, by the owner that they are local to and by
their names.  A class that is added changes what is found under names that are the same as
its own, and nothing else does.  Two catalogues that started from different ones are
compared in the classes that neither of these had.
-/

namespace ApiBindings

/-- The owner that a class is local to. -/
def ClassType.place (type : ClassType) : Option Text :=
  match type.scope with
  | .global => none
  | .ownerLocal => some (type.owner.getD [])

namespace Catalogue

/-- The class of a name: a global one, or the local one of an owner. -/
def class? (catalogue : Catalogue) : Option Text → Json → Option ClassType
  | none, name => (catalogue.global? name).bind NominalType.asClass?
  | some owner, name => catalogue.local? owner name

/-- Between two catalogues a class has been registered under a name that no class had. -/
structure Registers (before after : Catalogue) (owner : Option Text) (name : Json)
    (new : ClassType) : Prop where
  unknown : before.class? owner name = none
  found : after.class? owner name = some new

variable {before after : Catalogue}

theorem GrowsTo.class? (hgrows : before.GrowsTo after) {owner : Option Text} {name : Json}
    {type : ClassType} (hfound : before.class? owner name = some type) :
    after.class? owner name = some type := by
  cases owner with
  | none =>
      obtain ⟨found, hglobal, hclass⟩ := Option.bind_eq_some_iff.mp hfound
      exact Option.bind_eq_some_iff.mpr ⟨found, hgrows.global? hglobal, hclass⟩
  | some owner => exact hgrows.local? hfound

theorem local?_openOwner (catalogue : Catalogue) (opened : Text) :
    (catalogue.openOwner opened).local? = catalogue.local? := by
  funext owner name
  simp only [local?, localClasses_openOwner]

theorem class?_openOwner (catalogue : Catalogue) (opened : Text) :
    (catalogue.openOwner opened).class? = catalogue.class? := by
  funext owner name
  cases owner with
  | none => rfl
  | some owner => rw [class?, class?, local?_openOwner]

/-- The class of a name is found under any name that is the same. -/
theorem class?_congr {v w : Json} (catalogue : Catalogue) (owner : Option Text)
    (hkey : v.isKey = true) (hsame : v.same w = true) :
    catalogue.class? owner v = catalogue.class? owner w := by
  cases owner with
  | none => rw [class?, class?, global?_congr catalogue hkey hsame]
  | some owner => exact local?_congr catalogue owner hkey hsame

theorem global?_addGlobal_or (catalogue : Catalogue) (type : NominalType) (name : Json) :
    (catalogue.addGlobal type).global? name =
      (catalogue.global? name).or (if type.name.same name then some type else none) := by
  simp only [global?, globals_addGlobal, List.find?_append, List.find?_singleton]

theorem local?_addLocal_or (catalogue : Catalogue) (owner : Text) (type : ClassType)
    (name : Json) :
    (catalogue.addLocal owner type).local? owner name =
      (catalogue.local? owner name).or (if type.name.same name then some type else none) := by
  simp only [local?, localClasses_addLocal, if_true, List.find?_append, List.find?_singleton]

theorem class?_enumFor {name path : Text} {members : List TypeNode} {enum : EnumType}
    (hadd : before.enumFor name path members = .ok (enum, after)) :
    after.class? = before.class? := by
  obtain ⟨values, -, ⟨-, -, rfl⟩ | ⟨-, -, rfl⟩⟩ := enumFor_ok hadd
  · funext owner sought
    cases owner with
    | none =>
        rw [class?, class?, global?_addGlobal_or]
        cases before.global? sought with
        | some found => rfl
        | none =>
            rw [Option.none_or]
            split <;> rfl
    | some owner => rfl
  · rfl

/-- What is found after a class has been added. -/
def classAfter (catalogue : Catalogue) (new : ClassType) (owner : Option Text) (name : Json) :
    Option ClassType :=
  (catalogue.class? owner name).or
    (if owner = new.place ∧ new.name.same name = true then some new else none)

/-- A class that is found where it would be added needs not be added. -/
theorem classAfter_of_found {new type : ClassType} (hkey : new.name.isKey = true)
    (hfound : before.class? new.place new.name = some type) (owner : Option Text) (name : Json) :
    before.classAfter new owner name = before.class? owner name := by
  unfold classAfter
  split
  next hthere =>
    obtain ⟨rfl, hsame⟩ := hthere
    rw [← class?_congr before new.place hkey hsame, hfound, Option.some_or]
  next => rw [Option.or_none]

theorem class?_addGlobal {new : ClassType} (hscope : new.scope = .global)
    (hkey : new.name.isKey = true) (hnew : before.global? new.name = none)
    (owner : Option Text) (name : Json) :
    (before.addGlobal (.ofClass new)).class? owner name = before.classAfter new owner name := by
  have hplace : new.place = none := by rw [ClassType.place, hscope]
  rw [classAfter, hplace]
  cases owner with
  | some owner =>
      rw [if_neg (by simp), Option.or_none]
      rfl
  | none =>
      simp only [class?, global?_addGlobal_or, true_and]
      by_cases hsame : new.name.same name = true
      · rw [← global?_congr before hkey hsame, hnew]
        simp [NominalType.name, NominalType.asClass?, hsame]
      · simp [NominalType.name, hsame]

theorem class?_addLocal {new : ClassType} (hscope : new.scope = .ownerLocal)
    (owner : Option Text) (name : Json) :
    (before.addLocal (new.owner.getD []) new).class? owner name =
      before.classAfter new owner name := by
  have hplace : new.place = some (new.owner.getD []) := by rw [ClassType.place, hscope]
  rw [classAfter, hplace]
  cases owner with
  | none =>
      rw [if_neg (by simp), Option.or_none]
      rfl
  | some owner =>
      by_cases howner : owner = new.owner.getD []
      · subst howner
        simp only [class?, local?_addLocal_or, true_and]
      · simp [class?, local?, localClasses_addLocal, howner]

/-- A class is found where it has been added, unless another one was found there before. -/
theorem class?_addClass {new type : ClassType} (hadd : before.addClass new = .ok (type, after))
    (owner : Option Text) (name : Json) :
    after.class? owner name = before.classAfter new owner name := by
  obtain ⟨hkey, ⟨hscope, hfound, rfl⟩ | ⟨hscope, -, rfl, rfl⟩ | ⟨hscope, hnew, rfl, rfl⟩ |
    ⟨hscope, hfound, -, rfl⟩⟩ := addClass_ok hadd
  · have hthere : after.class? new.place new.name = some type := by
      rw [ClassType.place, hscope, class?, hfound]
    exact (classAfter_of_found hkey hthere owner name).symm
  · exact class?_addLocal hscope owner name
  · exact class?_addGlobal hscope hkey hnew owner name
  · have hthere : after.class? new.place new.name = some type := by
      rw [ClassType.place, hscope, class?, hfound]
      rfl
    exact (classAfter_of_found hkey hthere owner name).symm

/-! ## What two catalogues have got since -/

/-- Two catalogues that started from these have the same classes of those that neither of
these had. -/
def AddedAlike (start start' now now' : Catalogue) : Prop :=
  ∀ owner name, start.class? owner name = none → start'.class? owner name = none →
    now.class? owner name = now'.class? owner name

/-- Of the classes that neither had at the start, those that both have now are the same. -/
def AddedConsistently (start start' now now' : Catalogue) : Prop :=
  ∀ owner name, start.class? owner name = none → start'.class? owner name = none →
    ∀ new new', now.class? owner name = some new → now'.class? owner name = some new' →
      new = new'

variable {start start' now now' : Catalogue}

theorem addedAlike_start (start start' : Catalogue) : AddedAlike start start' start start' :=
  fun _ _ hnew hnew' => hnew.trans hnew'.symm

theorem AddedAlike.consistently (halike : AddedAlike start start' now now') :
    AddedConsistently start start' now now' := by
  intro owner name hnew hnew' new new' hfound hfound'
  rw [halike owner name hnew hnew', hfound'] at hfound
  exact (Option.some.inj hfound).symm

/-- What one catalogue gets alone, the other one does not have. -/
theorem AddedAlike.grow_right {after' : Catalogue} (halike : AddedAlike start start' now now')
    (hgrows : now'.GrowsTo after') : AddedConsistently start start' now after' := by
  intro owner name hnew hnew' new new' hfound hfound'
  have hknown : now'.class? owner name = some new :=
    (halike owner name hnew hnew').symm.trans hfound
  exact Option.some.inj ((hgrows.class? hknown).symm.trans hfound')

theorem AddedAlike.grow_left {after : Catalogue} (halike : AddedAlike start start' now now')
    (hgrows : now.GrowsTo after) : AddedConsistently start start' after now' := by
  intro owner name hnew hnew' new new' hfound hfound'
  have hknown : now.class? owner name = some new' :=
    (halike owner name hnew hnew').trans hfound'
  exact Option.some.inj (hfound.symm.trans (hgrows.class? hknown))

theorem AddedAlike.addClass {after' : Catalogue} {new type type' : ClassType}
    (halike : AddedAlike start start' now now')
    (hadd : now.addClass new = .ok (type, after))
    (hadd' : now'.addClass new = .ok (type', after')) :
    AddedAlike start start' after after' := by
  intro owner name hnew hnew'
  rw [class?_addClass hadd, class?_addClass hadd', classAfter, classAfter,
    halike owner name hnew hnew']

end Catalogue
end ApiBindings
