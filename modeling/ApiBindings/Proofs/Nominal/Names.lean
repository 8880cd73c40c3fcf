import ApiBindings.Proofs.Nominal.Growth
import Mathlib.Data.List.Nodup
/-!
# Names in the catalogue

The catalogue keeps one type for each global name and one class for each owner
and local name, and it finds each of them under its own name.  Registering a
type puts it behind the types that are there, and a new owner comes behind the
owners before.
-/

namespace ApiBindings

/-- The things in a list are named by values to look up by, and no two of them
by the same one. -/
structure DistinctlyNamed {α : Type} (name : α → Json) (things : List α) : Prop where
  keys : ∀ thing ∈ things, (name thing).isKey = true
  once : things.Pairwise fun earlier later => (name earlier).same (name later) = false

namespace DistinctlyNamed

variable {α : Type} {name : α → Json} {things : List α}

theorem nil : DistinctlyNamed name [] := ⟨by simp, .nil⟩

theorem concat (hthings : DistinctlyNamed name things) {new : α}
    (hkey : (name new).isKey = true)
    (hnew : things.find? (fun thing => (name thing).same (name new)) = none) :
    DistinctlyNamed name (things ++ [new]) where
  keys thing hthing := by
    rcases List.mem_append.mp hthing with hold | hlast
    · exact hthings.keys thing hold
    · obtain rfl : thing = new := by simpa using hlast
      exact hkey
  once := by
    have hapart := List.find?_eq_none.mp hnew
    refine List.pairwise_append.mpr ⟨hthings.once, List.pairwise_singleton _ _, ?_⟩
    intro thing hthing last hlast
    obtain rfl : last = new := by simpa using hlast
    simpa using hapart thing hthing

theorem find?_self (hthings : DistinctlyNamed name things) {thing : α}
    (hthing : thing ∈ things) :
    things.find? (fun other => (name other).same (name thing)) = some thing := by
  obtain ⟨before, after, rfl⟩ := List.append_of_mem hthing
  have hkey := hthings.keys thing hthing
  obtain ⟨-, -, hapart⟩ := List.pairwise_append.mp hthings.once
  refine List.find?_eq_some_iff_append.mpr
    ⟨Json.same_self_of_isKey hkey, before, after, rfl, fun other hother => ?_⟩
  simp [hapart other hother thing List.mem_cons_self]

theorem eq_of_name_eq (hthings : DistinctlyNamed name things) {a b : α}
    (ha : a ∈ things) (hb : b ∈ things) (hname : name a = name b) : a = b := by
  have hfound := hthings.find?_self ha
  rw [hname, hthings.find?_self hb] at hfound
  exact (Option.some.inj hfound).symm

end DistinctlyNamed

namespace Catalogue

/-- The owners that have been opened, in the order of first use. -/
def owners (catalogue : Catalogue) : List Text :=
  catalogue.locals.map Prod.fst

/-- Every global name, every owner and every local name of an owner occurs once,
and every class is kept in the scope that it is for. -/
structure Named (catalogue : Catalogue) : Prop where
  globals : DistinctlyNamed NominalType.name catalogue.globals
  owners : catalogue.owners.Nodup
  locals : ∀ owner, DistinctlyNamed ClassType.name (catalogue.localClasses owner)
  globalScope : ∀ type, .ofClass type ∈ catalogue.globals → type.scope = .global
  localScope : ∀ owner, ∀ type ∈ catalogue.localClasses owner,
    type.scope = .ownerLocal ∧ type.owner.getD [] = owner

/-- One catalogue starts with all that the other one holds, its owners included. -/
structure AppendsTo (before after : Catalogue) : Prop where
  grows : before.GrowsTo after
  owners : before.owners <+: after.owners

variable {catalogue after : Catalogue}

theorem AppendsTo.refl (catalogue : Catalogue) : catalogue.AppendsTo catalogue :=
  ⟨.refl _, List.prefix_rfl⟩

theorem AppendsTo.trans {a b c : Catalogue} (hab : a.AppendsTo b) (hbc : b.AppendsTo c) :
    a.AppendsTo c :=
  ⟨hab.grows.trans hbc.grows, hab.owners.trans hbc.owners⟩

theorem named_empty : Catalogue.empty.Named where
  globals := .nil
  owners := List.nodup_nil
  locals _ := .nil
  globalScope := by simp [Catalogue.empty]
  localScope := by simp [Catalogue.empty, localClasses]

theorem Named.global?_self (hnamed : catalogue.Named) {type : NominalType}
    (htype : type ∈ catalogue.globals) : catalogue.global? type.name = some type :=
  hnamed.globals.find?_self htype

theorem Named.local?_self (hnamed : catalogue.Named) {owner : Text} {type : ClassType}
    (htype : type ∈ catalogue.localClasses owner) :
    catalogue.local? owner type.name = some type :=
  (hnamed.locals owner).find?_self htype

/-! ## Owners -/

theorem owners_updateOwner (owner : Text) (change : List ClassType → List ClassType)
    (locals : List (Text × List ClassType)) :
    (updateOwner owner change locals).map Prod.fst =
      if owner ∈ locals.map Prod.fst then locals.map Prod.fst
      else locals.map Prod.fst ++ [owner] := by
  induction locals with
  | nil => rfl
  | cons entry rest ih =>
      obtain ⟨o, classes⟩ := entry
      by_cases ho : o = owner
      · simp [updateOwner, ho]
      · have ho' : ¬owner = o := fun heq => ho heq.symm
        simp only [updateOwner, if_neg ho, List.map_cons, ih, List.mem_cons, ho', false_or]
        split <;> rfl

theorem prefix_owners_updateOwner (owner : Text) (change : List ClassType → List ClassType)
    (locals : List (Text × List ClassType)) :
    locals.map Prod.fst <+: (updateOwner owner change locals).map Prod.fst := by
  rw [owners_updateOwner]
  split
  next => exact List.prefix_rfl
  next => exact List.prefix_append _ _

theorem nodup_owners_updateOwner {owner : Text} {change : List ClassType → List ClassType}
    {locals : List (Text × List ClassType)} (hlocals : (locals.map Prod.fst).Nodup) :
    ((updateOwner owner change locals).map Prod.fst).Nodup := by
  rw [owners_updateOwner]
  split
  next => exact hlocals
  next hnew => exact List.nodup_append_comm.mp (List.nodup_cons.mpr ⟨hnew, hlocals⟩)

/-! ## Additions -/

theorem Named.openOwner (hnamed : catalogue.Named) (owner : Text) :
    (catalogue.openOwner owner).Named where
  globals := hnamed.globals
  owners := nodup_owners_updateOwner hnamed.owners
  locals other := by
    rw [localClasses_openOwner]
    exact hnamed.locals other
  globalScope := hnamed.globalScope
  localScope other := by
    rw [localClasses_openOwner]
    exact hnamed.localScope other

theorem appendsTo_openOwner (catalogue : Catalogue) (owner : Text) :
    catalogue.AppendsTo (catalogue.openOwner owner) :=
  ⟨growsTo_openOwner _ _, prefix_owners_updateOwner _ _ _⟩

theorem Named.addGlobal (hnamed : catalogue.Named) {type : NominalType}
    (hkey : type.name.isKey = true) (hnew : catalogue.global? type.name = none)
    (hscope : ∀ added, type = .ofClass added → added.scope = .global) :
    (catalogue.addGlobal type).Named where
  globals := hnamed.globals.concat hkey hnew
  owners := hnamed.owners
  locals := hnamed.locals
  globalScope added hadded := by
    rcases List.mem_append.mp hadded with hold | hlast
    · exact hnamed.globalScope added hold
    · exact hscope added (by simpa [eq_comm] using hlast)
  localScope := hnamed.localScope

theorem appendsTo_addGlobal (catalogue : Catalogue) (type : NominalType) :
    catalogue.AppendsTo (catalogue.addGlobal type) :=
  ⟨growsTo_addGlobal _ _, List.prefix_rfl⟩

theorem Named.addLocal (hnamed : catalogue.Named) {type : ClassType}
    (hkey : type.name.isKey = true) (hscope : type.scope = .ownerLocal)
    (hnew : catalogue.local? (type.owner.getD []) type.name = none) :
    (catalogue.addLocal (type.owner.getD []) type).Named where
  globals := hnamed.globals
  owners := nodup_owners_updateOwner hnamed.owners
  locals other := by
    rw [localClasses_addLocal]
    split
    next => exact (hnamed.locals _).concat hkey hnew
    next => exact hnamed.locals other
  globalScope := hnamed.globalScope
  localScope other added hadded := by
    rw [localClasses_addLocal] at hadded
    split at hadded
    next howner =>
      subst howner
      rcases List.mem_append.mp hadded with hold | hlast
      · exact hnamed.localScope _ added hold
      · obtain rfl : added = type := by simpa using hlast
        exact ⟨hscope, rfl⟩
    next => exact hnamed.localScope other added hadded

theorem appendsTo_addLocal (catalogue : Catalogue) (owner : Text) (type : ClassType) :
    catalogue.AppendsTo (catalogue.addLocal owner type) :=
  ⟨growsTo_addLocal _ _ _, prefix_owners_updateOwner _ _ _⟩

/-! ## Registrations -/

theorem Named.addClass (hnamed : catalogue.Named) {new type : ClassType}
    (hadd : catalogue.addClass new = .ok (type, after)) :
    after.Named ∧ catalogue.AppendsTo after := by
  obtain ⟨hkey, ⟨-, -, rfl⟩ | ⟨hscope, hnew, rfl, rfl⟩ | ⟨hscope, hnew, rfl, rfl⟩ |
    ⟨-, -, -, rfl⟩⟩ := addClass_ok hadd
  · exact ⟨hnamed, .refl _⟩
  · exact ⟨hnamed.addLocal hkey hscope hnew, appendsTo_addLocal _ _ _⟩
  · refine ⟨hnamed.addGlobal hkey hnew ?_, appendsTo_addGlobal _ _⟩
    rintro _ ⟨rfl⟩
    exact hscope
  · exact ⟨hnamed, .refl _⟩

theorem Named.enumFor (hnamed : catalogue.Named) {name path : Text}
    {members : List TypeNode} {enum : EnumType}
    (hadd : catalogue.enumFor name path members = .ok (enum, after)) :
    after.Named ∧ catalogue.AppendsTo after := by
  obtain ⟨values, -, ⟨hnew, rfl, rfl⟩ | ⟨-, -, rfl⟩⟩ := enumFor_ok hadd
  · exact ⟨hnamed.addGlobal rfl hnew (by simp), appendsTo_addGlobal _ _⟩
  · exact ⟨hnamed, .refl _⟩

end Catalogue
end ApiBindings
