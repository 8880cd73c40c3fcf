import ApiBindings.Proofs.Nominal.Agreement
import ApiBindings.Proofs.Resolution.Enums
/-!
# Registration as a check of consistency

Global classes and enums are registered one after the other.  A definition whose
name is new comes into the catalogue, and every other one is compared with the type
that is held under its name, which is the first definition of that name.  Because
agreement is symmetric and transitive, comparing with the first one is as good as
comparing any two: all of them are accepted exactly if any two of the same name say
the same, whatever their order is.
-/

namespace ApiBindings

/-- Two types say the same: they are classes whose fields have the same signatures,
or enums of the same values. -/
inductive NominalType.Alike : NominalType → NominalType → Prop
  | classes {a b : ClassType} (hagrees : a.agrees b = true) : Alike (.ofClass a) (.ofClass b)
  | enums {a b : EnumType} (hvalues : a.values = b.values) : Alike (.ofEnum a) (.ofEnum b)

/-- Two types say the same unless they have different names. -/
def NominalType.Consistent (a b : NominalType) : Prop :=
  a.name.same b.name = true → a.Alike b

/-- The first type of each name, in the order in which they come, without those whose
names were seen before. -/
def NominalType.firsts (seen : List NominalType) : List NominalType → List NominalType
  | [] => []
  | type :: rest =>
    if seen.any (·.name.same type.name) then firsts seen rest
    else type :: firsts (seen ++ [type]) rest

/-- A global class, or a union that is to become an enum. -/
inductive Definition where
  | ofClass (new : ClassType)
  | ofEnum (name path : Text) (members : List TypeNode)

namespace Definition

/-- The type that is defined. -/
def type : Definition → NominalType
  | .ofClass new => .ofClass new
  | .ofEnum name path members =>
    .ofEnum ⟨name, members.map fun member => Text.enumConstant member.name, path⟩

/-- A class is global, with names that are proper values, and a union has a name and
members that name the values of an enum. -/
inductive Valid : Definition → Prop
  | ofClass {new : ClassType} (hscope : new.scope = .global) (hkey : new.name.isKey = true)
      (hproper : new.ProperNames) : Valid (.ofClass new)
  | ofEnum {name : Text} (path : Text) {members : List TypeNode} {values : List Text}
      (hname : name ≠ "") (hvalues : EnumValues members values) : Valid (.ofEnum name path members)

def register : Definition → Resolving Unit
  | .ofClass new => do
    let _ ← registerClass new
  | .ofEnum name path members => do
    let _ ← Resolving.onCatalogue (·.enumFor name path members)

/-- Register definitions one after the other, up to the first that is refused. -/
def registerAll : List Definition → Resolving Unit
  | [] => pure ()
  | definition :: rest => do
    definition.register
    registerAll rest

end Definition

/-! ## Alikeness -/

namespace NominalType

/-- The names in a class are proper values. -/
inductive Proper : NominalType → Prop
  | ofClass {type : ClassType} (hkey : type.name.isKey = true) (hproper : type.ProperNames) :
      Proper (.ofClass type)
  | ofEnum (type : EnumType) : Proper (.ofEnum type)

theorem Proper.isKey {type : NominalType} (hproper : type.Proper) : type.name.isKey = true := by
  cases hproper with
  | ofClass hkey => exact hkey
  | ofEnum => rfl

theorem Alike.refl {type : NominalType} (hproper : type.Proper) : type.Alike type := by
  cases hproper with
  | ofClass _ hproper => exact .classes (ClassType.agrees_refl hproper)
  | ofEnum => exact .enums rfl

theorem Alike.symm {a b : NominalType} (ha : a.Proper) (hb : b.Proper) (halike : a.Alike b) :
    b.Alike a := by
  cases halike with
  | classes hagrees =>
      cases ha with
      | ofClass _ ha =>
          cases hb with
          | ofClass _ hb => exact .classes (ClassType.agrees_symm ha hb hagrees)
  | enums hvalues => exact .enums hvalues.symm

theorem Alike.trans {a b c : NominalType} (hab : a.Alike b) (hbc : b.Alike c) : a.Alike c := by
  cases hab with
  | classes hab =>
      cases hbc with
      | classes hbc => exact .classes (ClassType.agrees_trans hab hbc)
  | enums hab =>
      cases hbc with
      | enums hbc => exact .enums (hab.trans hbc)

theorem mem_of_mem_firsts {seen types : List NominalType} {type : NominalType}
    (hfirst : type ∈ firsts seen types) : type ∈ types := by
  induction types generalizing seen with
  | nil => exact hfirst
  | cons head rest ih =>
      rw [firsts] at hfirst
      split at hfirst
      next => exact List.mem_cons_of_mem _ (ih hfirst)
      next =>
        rcases List.mem_cons.mp hfirst with rfl | hrest
        · exact List.mem_cons_self
        · exact List.mem_cons_of_mem _ (ih hrest)

end NominalType

theorem Definition.Valid.proper {definition : Definition} (hvalid : definition.Valid) :
    definition.type.Proper := by
  cases hvalid with
  | ofClass _ hkey hproper => exact .ofClass hkey hproper
  | ofEnum => exact .ofEnum _

namespace Catalogue

/-! ## One definition -/

/-- What becomes of a catalogue when a type is to come into it: the type is put behind
the others, or one that says the same is held under its name, or the type is refused. -/
inductive Receives (catalogue : Catalogue) (type : NominalType) : Except Failure Catalogue → Prop
  | fresh (hnew : catalogue.global? type.name = none) :
      Receives catalogue type (.ok (catalogue.addGlobal type))
  | known {held : NominalType} (hfound : catalogue.global? type.name = some held)
      (halike : held.Alike type) : Receives catalogue type (.ok catalogue)
  | refused {held : NominalType} {cause : Cause}
      (hfound : catalogue.global? type.name = some held) (hunlike : ¬held.Alike type)
      (hfamily : cause.family = .duplicateNominalType) :
      Receives catalogue type (.error (cause.atPath type.path))

theorem receives_addClass (catalogue : Catalogue) {new : ClassType} (hscope : new.scope = .global)
    (hkey : new.name.isKey = true) :
    catalogue.Receives (.ofClass new) ((catalogue.addClass new).map Prod.snd) := by
  have hname : NominalType.name (.ofClass new) = new.name := rfl
  unfold addClass
  simp only [hkey, hscope, Bool.not_true, Bool.false_eq_true, if_false]
  cases hfound : catalogue.global? new.name with
  | none => exact .fresh hfound
  | some held =>
      cases held with
      | ofEnum type =>
          refine .refused hfound ?_ rfl
          intro halike
          cases halike
      | ofClass type =>
          by_cases hagrees : type.agrees new = true
          · simp only [hagrees, if_true]
            exact .known hfound (.classes hagrees)
          · simp only [hagrees]
            refine .refused hfound ?_ rfl
            intro halike
            cases halike with
            | classes halike => exact hagrees halike

theorem receives_enumFor (catalogue : Catalogue) {name : Text} (path : Text)
    {members : List TypeNode} {values : List Text} (hname : name ≠ "")
    (hvalues : EnumValues members values) :
    catalogue.Receives (.ofEnum ⟨name, values, path⟩)
      ((catalogue.enumFor name path members).map Prod.snd) := by
  rw [enumFor_eq hname hvalues, addEnum]
  cases hfound : catalogue.global? (.str name) with
  | none => exact .fresh hfound
  | some held =>
      cases held with
      | ofClass type =>
          refine .refused hfound ?_ rfl
          intro halike
          cases halike
      | ofEnum type =>
          by_cases hsame : type.values = values
          · simp only [hsame, if_true]
            exact .known hfound (.enums hsame)
          · simp only [hsame]
            refine .refused hfound ?_ rfl
            intro halike
            cases halike with
            | enums hvalues => exact hsame hvalues

end Catalogue

theorem Definition.type_ofEnum {name path : Text} {members : List TypeNode} {values : List Text}
    (hvalues : EnumValues members values) :
    (Definition.ofEnum name path members).type = .ofEnum ⟨name, values, path⟩ := by
  rw [Definition.type, ← hvalues.eq_map]

namespace Resolving

theorem outcome_discard {α : Type} (step : Catalogue → Except Failure (α × Catalogue))
    (known : Knowledge) :
    outcome (do let _ ← onCatalogue step) known =
      match (step known.catalogue).map Prod.snd with
      | .ok catalogue => (.ok (), { known with catalogue })
      | .error failure => (.error failure, known) := by
  rw [outcome_bind, outcome_onCatalogue]
  rcases step known.catalogue with failure | ⟨a, catalogue⟩ <;> rfl

/-- A step of registration ends with what becomes of the catalogue. -/
theorem outcome_register {definition : Definition} (hvalid : definition.Valid)
    (known : Knowledge) :
    ∃ result, known.catalogue.Receives definition.type result ∧
      outcome definition.register known =
        match result with
        | .ok catalogue => (.ok (), { known with catalogue })
        | .error failure => (.error failure, known) := by
  cases hvalid with
  | @ofClass new hscope hkey _ =>
      have hstep : Definition.register (.ofClass new) =
          (do let _ ← onCatalogue (·.addClass new)) := by
        rw [Definition.register, registerClass, hscope]
        rfl
      refine ⟨_, known.catalogue.receives_addClass hscope hkey, ?_⟩
      rw [hstep, outcome_discard]
  | ofEnum path hname hvalues =>
      refine ⟨_, ?_, outcome_discard _ known⟩
      rw [Definition.type_ofEnum hvalues]
      exact known.catalogue.receives_enumFor path hname hvalues

end Resolving

/-! ## All definitions -/

namespace Catalogue

/-- Types come into a catalogue one after the other, none of them refused. -/
inductive Gathers : Catalogue → List NominalType → Catalogue → Prop
  | nil (catalogue : Catalogue) : Gathers catalogue [] catalogue
  | fresh {catalogue after : Catalogue} {type : NominalType} {rest : List NominalType}
      (hnew : catalogue.global? type.name = none)
      (hrest : Gathers (catalogue.addGlobal type) rest after) :
      Gathers catalogue (type :: rest) after
  | known {catalogue after : Catalogue} {type held : NominalType} {rest : List NominalType}
      (hfound : catalogue.global? type.name = some held) (halike : held.Alike type)
      (hrest : Gathers catalogue rest after) : Gathers catalogue (type :: rest) after

variable {catalogue after : Catalogue} {types : List NominalType}

theorem Gathers.eq_firsts (hgathers : catalogue.Gathers types after) :
    after = ⟨catalogue.globals ++ NominalType.firsts catalogue.globals types,
      catalogue.locals⟩ := by
  induction hgathers with
  | nil catalogue => rw [NominalType.firsts, List.append_nil]
  | @fresh catalogue after type rest hnew _ ih =>
      have hunseen : catalogue.globals.any (·.name.same type.name) = false := by
        rw [List.any_eq_false]
        exact List.find?_eq_none.mp hnew
      rw [ih, NominalType.firsts, hunseen, globals_addGlobal, List.append_assoc]
      rfl
  | @known catalogue after type held rest hfound _ _ ih =>
      have hseen : catalogue.globals.any (·.name.same type.name) = true :=
        List.any_eq_true.mpr ⟨held, global?_some hfound⟩
      rw [ih, NominalType.firsts, hseen, if_pos rfl]

theorem Gathers.growsTo (hgathers : catalogue.Gathers types after) :
    catalogue.GrowsTo after := by
  rw [hgathers.eq_firsts]
  exact ⟨List.prefix_append _ _, fun _ => List.prefix_rfl⟩

/-- A type that is held under the name of one that was gathered says the same. -/
theorem Gathers.exists_alike (hgathers : catalogue.Gathers types after)
    (hproper : ∀ type ∈ types, type.Proper) :
    ∀ type ∈ types, ∃ held, after.global? type.name = some held ∧ held.Alike type := by
  induction hgathers with
  | nil => exact nofun
  | fresh hnew hrest ih =>
      rcases List.forall_mem_cons.mp hproper with ⟨htype, hothers⟩
      refine List.forall_mem_cons.mpr ⟨?_, ih hothers⟩
      have hfound := global?_addGlobal htype.isKey hnew
      exact ⟨_, hrest.growsTo.global? hfound, .refl htype⟩
  | known hfound halike hrest ih =>
      rcases List.forall_mem_cons.mp hproper with ⟨-, hothers⟩
      exact List.forall_mem_cons.mpr
        ⟨⟨_, hrest.growsTo.global? hfound, halike⟩, ih hothers⟩

theorem Gathers.mem_of_global? (hgathers : empty.Gathers types after) {name : Json}
    {held : NominalType} (hfound : after.global? name = some held) : held ∈ types := by
  have hmem := (global?_some hfound).1
  rw [hgathers.eq_firsts] at hmem
  exact NominalType.mem_of_mem_firsts hmem

/-- Types that were gathered are consistent, because each of them says what the first one
of its name does. -/
theorem Gathers.consistent (hgathers : empty.Gathers types after)
    (hproper : ∀ type ∈ types, type.Proper) :
    ∀ a ∈ types, ∀ b ∈ types, a.Consistent b := by
  intro a ha b hb hname
  rcases hgathers.exists_alike hproper a ha with ⟨held, hfound, hheld⟩
  rcases hgathers.exists_alike hproper b hb with ⟨held', hfound', hheld'⟩
  obtain rfl : held = held' := by
    rw [global?_congr after (hproper a ha).isKey hname, hfound'] at hfound
    exact (Option.some.inj hfound).symm
  -- the type that is held is one of those gathered, so that its names are proper as well
  have hmem := hgathers.mem_of_global? hfound
  exact (hheld.symm (hproper held hmem) (hproper a ha)).trans hheld'

end Catalogue

/-- Types are gathered, and a later one says something else than the type that is held
under its name then. -/
structure Catalogue.Clashes (catalogue : Catalogue) (before : List NominalType)
    (later : NominalType) (after : Catalogue) : Prop where
  gathers : catalogue.Gathers before after
  differs : ∃ held, after.global? later.name = some held ∧ ¬held.Alike later

theorem Catalogue.Clashes.exists_inconsistent {before : List NominalType}
    {later : NominalType} {after : Catalogue} (hclashes : empty.Clashes before later after) :
    ∃ earlier ∈ before, ¬earlier.Consistent later := by
  rcases hclashes with ⟨hgathers, held, hfound, hunlike⟩
  refine ⟨held, hgathers.mem_of_global? hfound, fun hconsistent => ?_⟩
  exact hunlike (hconsistent (global?_some hfound).2)

/-- Definitions are all gathered, or the first one that is refused clashes with those
before it. -/
theorem Resolving.outcome_registerAll {definitions : List Definition}
    (hvalid : ∀ definition ∈ definitions, definition.Valid) (known : Knowledge) :
    (∃ after, known.catalogue.Gathers (definitions.map Definition.type) after ∧
      outcome (Definition.registerAll definitions) known =
        (.ok (), { known with catalogue := after })) ∨
    ∃ (before : List Definition) (later : Definition) (rest : List Definition)
      (after : Catalogue) (cause : Cause), definitions = before ++ later :: rest ∧
      known.catalogue.Clashes (before.map Definition.type) later.type after ∧
      cause.family = .duplicateNominalType ∧
      outcome (Definition.registerAll definitions) known =
        (.error (cause.atPath later.type.path), { known with catalogue := after }) := by
  induction definitions generalizing known with
  | nil => exact .inl ⟨known.catalogue, .nil _, rfl⟩
  | cons definition rest ih =>
      rcases List.forall_mem_cons.mp hvalid with ⟨hdefinition, hrest⟩
      rcases outcome_register hdefinition known with ⟨result, hreceives, hregister⟩
      rw [Definition.registerAll, outcome_bind, hregister]
      cases hreceives with
      | fresh hnew =>
          rcases ih hrest { known with catalogue := known.catalogue.addGlobal definition.type } with
            ⟨after, hgathers, hrun⟩ |
            ⟨before, later, others, after, cause, hsplit, ⟨hgathers, hdiffers⟩, hend⟩
          · exact .inl ⟨after, .fresh hnew hgathers, hrun⟩
          · exact .inr ⟨definition :: before, later, others, after, cause,
              congrArg (definition :: ·) hsplit, ⟨.fresh hnew hgathers, hdiffers⟩, hend⟩
      | known hfound halike =>
          rcases ih hrest known with
            ⟨after, hgathers, hrun⟩ |
            ⟨before, later, others, after, cause, hsplit, ⟨hgathers, hdiffers⟩, hend⟩
          · exact .inl ⟨after, .known hfound halike hgathers, hrun⟩
          · exact .inr ⟨definition :: before, later, others, after, cause,
              congrArg (definition :: ·) hsplit, ⟨.known hfound halike hgathers, hdiffers⟩, hend⟩
      | refused hfound hunlike hfamily =>
          exact .inr ⟨[], definition, rest, known.catalogue, _, rfl,
            ⟨.nil _, _, hfound, hunlike⟩, hfamily, rfl⟩

theorem Definition.proper_types {definitions : List Definition}
    (hvalid : ∀ definition ∈ definitions, definition.Valid) :
    ∀ type ∈ definitions.map Definition.type, type.Proper :=
  List.forall_mem_map.mpr fun definition hdefinition => (hvalid definition hdefinition).proper

theorem registerAll_ok_iff {definitions : List Definition}
    (hvalid : ∀ definition ∈ definitions, definition.Valid) :
    (Resolving.outcome (Definition.registerAll definitions) .empty).1 = .ok () ↔
      ∀ a ∈ definitions, ∀ b ∈ definitions, a.type.Consistent b.type := by
  rcases Resolving.outcome_registerAll hvalid .empty with
    ⟨after, hgathers, hrun⟩ | ⟨before, later, rest, after, cause, hsplit, hclashes, -, hrun⟩
  · refine ⟨fun _ a ha b hb => ?_, fun _ => congrArg Prod.fst hrun⟩
    exact hgathers.consistent (Definition.proper_types hvalid) _ (List.mem_map_of_mem ha) _
      (List.mem_map_of_mem hb)
  · constructor
    · intro hok
      exact nomatch (congrArg Prod.fst hrun).symm.trans hok
    · intro hconsistent
      rcases hclashes.exists_inconsistent with ⟨earlier, hearlier, hinconsistent⟩
      rcases List.mem_map.mp hearlier with ⟨definition, hdefinition, rfl⟩
      refine absurd (hconsistent definition ?_ later ?_) hinconsistent
      · exact hsplit ▸ List.mem_append_left _ hdefinition
      · exact hsplit ▸ List.mem_append_right _ List.mem_cons_self

/-! ## The theorem -/

/-- Global classes and enums are all accepted exactly if any two of one name say the
same, which does not depend on their order.  Then the catalogue holds the first type of
each name, in the order in which they came.  Otherwise the first failure is that of a
definition that differs from one of the same name before it, and carries its path; the
definitions before it are consistent and stay in the catalogue. -/
theorem registerAll_consistent {definitions : List Definition}
    (hvalid : ∀ definition ∈ definitions, definition.Valid) :
    let ended := Resolving.outcome (Definition.registerAll definitions) .empty
    (ended.1 = .ok () ↔ ∀ a ∈ definitions, ∀ b ∈ definitions, a.type.Consistent b.type) ∧
    (ended.1 = .ok () →
      ended.2 = ⟨⟨NominalType.firsts [] (definitions.map Definition.type), []⟩, []⟩) ∧
    (∀ reordered : List Definition, reordered.Perm definitions →
      ((Resolving.outcome (Definition.registerAll reordered) .empty).1 = .ok () ↔
        ended.1 = .ok ())) ∧
    ∀ failure, ended.1 = .error failure →
      ∃ before later rest, definitions = before ++ later :: rest ∧
        (∃ earlier ∈ before, ¬earlier.type.Consistent later.type) ∧
        (∀ a ∈ before, ∀ b ∈ before, a.type.Consistent b.type) ∧
        (∃ cause : Cause, cause.family = .duplicateNominalType ∧
          failure = cause.atPath later.type.path) ∧
        ended.2 = ⟨⟨NominalType.firsts [] (before.map Definition.type), []⟩, []⟩ := by
  intro ended
  refine ⟨registerAll_ok_iff hvalid, ?_, ?_, ?_⟩
  · intro hok
    rcases Resolving.outcome_registerAll hvalid .empty with
      ⟨after, hgathers, hrun⟩ | ⟨before, later, rest, after, cause, -, -, -, hrun⟩
    · exact (congrArg Prod.snd hrun).trans (by rw [hgathers.eq_firsts]; rfl)
    · exact nomatch (congrArg Prod.fst hrun).symm.trans hok
  · intro reordered hperm
    have hreordered : ∀ definition ∈ reordered, definition.Valid :=
      fun definition hdefinition => hvalid definition (hperm.mem_iff.mp hdefinition)
    rw [registerAll_ok_iff hreordered, registerAll_ok_iff hvalid]
    simp only [hperm.mem_iff]
  · intro failure hfailed
    rcases Resolving.outcome_registerAll hvalid .empty with
      ⟨after, -, hrun⟩ | ⟨before, later, rest, after, cause, hsplit, hclashes, hfamily, hrun⟩
    · exact nomatch (congrArg Prod.fst hrun).symm.trans hfailed
    · have hbefore : ∀ definition ∈ before, definition.Valid :=
        fun definition hdefinition =>
          hvalid definition (hsplit ▸ List.mem_append_left _ hdefinition)
      refine ⟨before, later, rest, hsplit, ?_, ?_, ⟨cause, hfamily, ?_⟩, ?_⟩
      · rcases hclashes.exists_inconsistent with ⟨earlier, hearlier, hinconsistent⟩
        rcases List.mem_map.mp hearlier with ⟨definition, hdefinition, rfl⟩
        exact ⟨definition, hdefinition, hinconsistent⟩
      · intro a ha b hb
        exact hclashes.gathers.consistent (Definition.proper_types hbefore) _
          (List.mem_map_of_mem ha) _ (List.mem_map_of_mem hb)
      · exact Except.error.inj (hfailed.symm.trans (congrArg Prod.fst hrun))
      · exact (congrArg Prod.snd hrun).trans (by rw [hclashes.gathers.eq_firsts]; rfl)

/-! ## A class that is defined twice -/

/-- The class of records with a width, as it is made at a path. -/
def widthClass (path : Text) : ClassType where
  name := .str "Size"
  fields := [⟨"width", some (.builtin "int"), true, .null⟩]
  scope := .global
  owner := none
  path := path
  isReturnType := false

def toneMembers : List TypeNode := [.primitive "'dark'" "Page.tone", .primitive "'light'" "Page.tone"]

/-- The class of records with a width, an enum, and the class again. -/
def sizesAndTone : List Definition :=
  [.ofClass (widthClass "Page.size"), .ofEnum "Tone" "Page.tone" toneMembers,
    .ofClass (widthClass "Page.resize")]

theorem valid_sizesAndTone : ∀ definition ∈ sizesAndTone, definition.Valid := by
  have hclass : ∀ path, (Definition.ofClass (widthClass path)).Valid := by
    intro path
    refine .ofClass rfl rfl fun field hfield => ?_
    rw [List.mem_singleton.mp hfield]
    trivial
  have hvalues : Catalogue.enumValues "Tone" "Page.tone" [] toneMembers =
      .ok ["DARK", "LIGHT"] := rfl
  have henum : (Definition.ofEnum "Tone" "Page.tone" toneMembers).Valid :=
    .ofEnum "Page.tone" (by decide) (Catalogue.enumValues_start_iff.mp hvalues)
  intro definition hdefinition
  simp only [sizesAndTone, List.mem_cons, List.not_mem_nil, or_false] at hdefinition
  rcases hdefinition with rfl | rfl | rfl
  · exact hclass _
  · exact henum
  · exact hclass _

theorem registerAll_consistent_sizes :
    (∀ definition ∈ sizesAndTone, definition.Valid) ∧
      (Resolving.outcome (Definition.registerAll sizesAndTone) .empty).2 =
        ⟨⟨[.ofClass (widthClass "Page.size"), .ofEnum ⟨"Tone", ["DARK", "LIGHT"], "Page.tone"⟩],
          []⟩, []⟩ ∧
      ∀ a ∈ sizesAndTone, ∀ b ∈ sizesAndTone, a.type.Consistent b.type := by
  rcases registerAll_consistent valid_sizesAndTone with ⟨hiff, hfirsts, -⟩
  have hok : (Resolving.outcome (Definition.registerAll sizesAndTone) .empty).1 = .ok () := rfl
  exact ⟨valid_sizesAndTone, hfirsts hok, hiff.mp hok⟩

end ApiBindings
