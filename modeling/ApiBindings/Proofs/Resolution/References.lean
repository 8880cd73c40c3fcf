import ApiBindings.Proofs.Resolution.Memory
import ApiBindings.Proofs.Resolution.Requests
/-!
# References name stored types

A reference is built by name, while the type of that name is stored by the catalogue.
Whatever types are resolved one after the other, at any addresses and with success or
not, every reference to a class or an enum either is the target of a replacement or names
a type that is stored in its scope; and what a class refers to was stored before that
class, so that no class can refer to itself through its fields.

A property of a global class has a global type, because its type is resolved for the
property.  One way around this exists: its type may have been resolved by itself before,
for an owner whose records stay local, and what was returned then is remembered.
-/

namespace ApiBindings

/-- A reference and the variants that it stands for. -/
def TypeRef.parts (ref : TypeRef) : List TypeRef :=
  ref :: ref.variants

/-- The reference is the target of a type that the settings replace. -/
def Settings.Replaces (settings : Settings) (ref : TypeRef) : Prop :=
  ∃ path replaced, settings.override? path = .ok (some replaced) ∧
    ref.kind = (if replaced.kind.isText "enum" then .enumType else .classType) ∧
    ref.name = replaced.target ∧ ref.scope = .global

/-- The catalogue has the class or enum of a reference in its scope. -/
def Catalogue.Stores (catalogue : Catalogue) (ref : TypeRef) : Prop :=
  match ref.kind, ref.scope with
  | .classType, .global =>
    ∃ type, catalogue.global? ref.name = some (.ofClass type)
  | .classType, .ownerLocal =>
    ∃ owner type, ref.owner = some owner ∧ catalogue.local? owner ref.name = some type
  | .enumType, .global =>
    ∃ enum, catalogue.global? ref.name = some (.ofEnum enum)
  | .enumType, .ownerLocal => False
  | .builtin, _ => True
  | .union, _ => True

/-- Every part of a reference is replaced or stored. -/
def Catalogue.Grounds (settings : Settings) (catalogue : Catalogue)
    (ref : TypeRef) : Prop :=
  ∀ part ∈ ref.parts, settings.Replaces part ∨ catalogue.Stores part

/-- No part of a reference is local to an interface. -/
def TypeRef.IsGlobal (ref : TypeRef) : Prop :=
  ∀ part ∈ ref.parts, part.scope = .global

/-- A property of the references that type the fields of a class. -/
def ClassType.RefersTo (type : ClassType) (property : TypeRef → Prop) : Prop :=
  ∀ field ∈ type.fields, ∀ ref, field.type = some ref → property ref

section
variable {settings : Settings} {catalogue before after : Catalogue} {ref : TypeRef}

theorem Catalogue.GrowsTo.stores (hgrows : before.GrowsTo after)
    (hstored : before.Stores ref) : after.Stores ref := by
  unfold Catalogue.Stores at hstored ⊢
  split at hstored
  · obtain ⟨type, hfound⟩ := hstored
    exact ⟨type, hgrows.global? hfound⟩
  · obtain ⟨owner, type, howner, hfound⟩ := hstored
    exact ⟨owner, type, howner, hgrows.local? hfound⟩
  · obtain ⟨enum, hfound⟩ := hstored
    exact ⟨enum, hgrows.global? hfound⟩
  · exact hstored
  · trivial
  · trivial

theorem Catalogue.GrowsTo.grounds (hgrows : before.GrowsTo after)
    (hground : before.Grounds settings ref) : after.Grounds settings ref :=
  fun part hpart => (hground part hpart).imp id hgrows.stores

/-- A global reference needs the global types only. -/
theorem Catalogue.Stores.of_globals (hstored : catalogue.Stores ref)
    (hscope : ref.scope = .global) :
    Catalogue.Stores ⟨catalogue.globals, []⟩ ref := by
  unfold Catalogue.Stores at hstored ⊢
  rw [hscope] at hstored ⊢
  cases hkind : ref.kind <;> simp_all [Catalogue.global?]

/-- A reference without variants is its only part. -/
theorem TypeRef.mem_parts_iff {part : TypeRef} (hvariants : ref.variants = []) :
    part ∈ ref.parts ↔ part = ref := by
  simp [TypeRef.parts, hvariants]

theorem Catalogue.Stores.grounds (hstored : catalogue.Stores ref)
    (hvariants : ref.variants = []) : catalogue.Grounds settings ref := by
  intro part hpart
  rw [(TypeRef.mem_parts_iff hvariants).mp hpart]
  exact .inr hstored

theorem Settings.Replaces.grounds (hreplaced : settings.Replaces ref)
    (hvariants : ref.variants = []) : catalogue.Grounds settings ref := by
  intro part hpart
  rw [(TypeRef.mem_parts_iff hvariants).mp hpart]
  exact .inl hreplaced

theorem Catalogue.Grounds.asNullable (hground : catalogue.Grounds settings ref) :
    catalogue.Grounds settings ref.asNullable := by
  obtain ⟨kind, name, scope, owner, isNullable, variants⟩ := ref
  intro part hpart
  rcases List.mem_cons.mp hpart with rfl | hpart
  · exact hground (.mk kind name scope owner isNullable variants) List.mem_cons_self
  · exact hground part (List.mem_cons_of_mem _ hpart)

theorem TypeRef.IsGlobal.asNullable (hglobal : ref.IsGlobal) :
    ref.asNullable.IsGlobal := by
  obtain ⟨kind, name, scope, owner, isNullable, variants⟩ := ref
  intro part hpart
  rcases List.mem_cons.mp hpart with rfl | hpart
  · exact hglobal (.mk kind name scope owner isNullable variants) List.mem_cons_self
  · exact hglobal part (List.mem_cons_of_mem _ hpart)

end

theorem List.append_cons_eq_append_singleton {α : Type} {before after items : List α}
    {a b : α} (hsplit : before ++ a :: after = items ++ [b]) :
    (∃ rest, items = before ++ a :: rest) ∨ (before = items ∧ a = b) := by
  rcases List.eq_nil_or_concat after with rfl | ⟨rest, last, rfl⟩
  · have heq := List.append_inj' hsplit rfl
    exact .inr ⟨heq.1, by simpa using heq.2⟩
  · rw [List.concat_eq_append, ← List.cons_append, ← List.append_assoc] at hsplit
    exact .inl ⟨rest, (List.append_inj' hsplit rfl).1.symm⟩

/-- A reference to global types that are replaced or among those before. -/
def Settings.GroundsEarlier (settings : Settings) (before : List NominalType)
    (ref : TypeRef) : Prop :=
  ∀ part ∈ ref.parts, settings.Replaces part ∨
    (part.scope = .global ∧ Catalogue.Stores ⟨before, []⟩ part)

/-- A reference to types, local ones included, that were stored when the global types
were those before. -/
def Catalogue.GroundsAt (settings : Settings) (catalogue : Catalogue)
    (before : List NominalType) (ref : TypeRef) : Prop :=
  ∃ earlier : Catalogue, earlier.globals = before ∧ earlier.GrowsTo catalogue ∧
    earlier.Grounds settings ref

section
variable {settings : Settings} {catalogue after : Catalogue} {before : List NominalType}
  {ref : TypeRef}

theorem Catalogue.GroundsAt.grows (hground : catalogue.GroundsAt settings before ref)
    (hgrows : catalogue.GrowsTo after) : after.GroundsAt settings before ref := by
  obtain ⟨earlier, hbefore, hearlier, hground⟩ := hground
  exact ⟨earlier, hbefore, hearlier.trans hgrows, hground⟩

theorem Catalogue.GroundsAt.grounds (hground : catalogue.GroundsAt settings before ref) :
    catalogue.Grounds settings ref := by
  obtain ⟨earlier, -, hearlier, hground⟩ := hground
  exact hearlier.grounds hground

/-- The global references among grounded ones are to the global types before. -/
theorem Catalogue.GroundsAt.earlier (hground : catalogue.GroundsAt settings before ref)
    (hglobal : ref.IsGlobal) : settings.GroundsEarlier before ref := by
  obtain ⟨earlier, rfl, -, hground⟩ := hground
  intro part hpart
  exact (hground part hpart).imp id fun hstored =>
    ⟨hglobal part hpart, hstored.of_globals (hglobal part hpart)⟩

end

/-! ## Everything known is grounded -/

/-- All references known are grounded, and those of a class were so before the class. -/
structure Knowledge.Grounded (settings : Settings) (known : Knowledge) : Prop where
  remembered : ∀ entry ∈ known.resolved, known.catalogue.Grounds settings entry.2
  locals : ∀ owner, ∀ type ∈ known.catalogue.localClasses owner,
    type.RefersTo (known.catalogue.Grounds settings)
  globals : ∀ before type after,
    known.catalogue.globals = before ++ .ofClass type :: after →
      type.RefersTo (known.catalogue.GroundsAt settings before)

section
variable {settings : Settings} {known : Knowledge}

theorem Knowledge.Grounded.addGlobal (hground : known.Grounded settings)
    {type : NominalType}
    (hrefers : ∀ added, type = .ofClass added →
      added.RefersTo (known.catalogue.Grounds settings)) :
    Knowledge.Grounded settings
      { known with catalogue := known.catalogue.addGlobal type } := by
  have hgrows := Catalogue.growsTo_addGlobal known.catalogue type
  constructor
  · intro entry hentry
    exact hgrows.grounds (hground.remembered entry hentry)
  · intro owner added hadded field hfield ref href
    exact hgrows.grounds (hground.locals owner added hadded field hfield ref href)
  · intro before added after hsplit field hfield ref href
    rcases List.append_cons_eq_append_singleton hsplit.symm with
      ⟨rest, hrest⟩ | ⟨rfl, hadded⟩
    · exact (hground.globals before added rest hrest field hfield ref href).grows hgrows
    · exact ⟨_, rfl, hgrows, hrefers added hadded.symm field hfield ref href⟩

theorem Knowledge.Grounded.addLocal (hground : known.Grounded settings)
    {owner : Text} {type : ClassType}
    (hrefers : type.RefersTo (known.catalogue.Grounds settings)) :
    Knowledge.Grounded settings
      { known with catalogue := known.catalogue.addLocal owner type } := by
  have hgrows := Catalogue.growsTo_addLocal known.catalogue owner type
  constructor
  · intro entry hentry
    exact hgrows.grounds (hground.remembered entry hentry)
  · intro other added hadded field hfield ref href
    apply hgrows.grounds
    simp only [Catalogue.localClasses_addLocal] at hadded
    split at hadded
    next =>
      rcases List.mem_append.mp hadded with hold | hnew
      · exact hground.locals owner added hold field hfield ref href
      · obtain rfl : added = type := by simpa using hnew
        exact hrefers field hfield ref href
    next => exact hground.locals other added hadded field hfield ref href
  · intro before added after hsplit field hfield ref href
    exact (hground.globals before added after hsplit field hfield ref href).grows hgrows

theorem Knowledge.Grounded.openOwner (hground : known.Grounded settings)
    (owner : Text) :
    Knowledge.Grounded settings
      { known with catalogue := known.catalogue.openOwner owner } := by
  have hgrows := Catalogue.growsTo_openOwner known.catalogue owner
  constructor
  · intro entry hentry
    exact hgrows.grounds (hground.remembered entry hentry)
  · intro other type htype field hfield ref href
    rw [Catalogue.localClasses_openOwner] at htype
    exact hgrows.grounds (hground.locals other type htype field hfield ref href)
  · intro before type after hsplit field hfield ref href
    exact (hground.globals before type after hsplit field hfield ref href).grows hgrows

end

namespace Resolving

end Resolving

end ApiBindings
