import ApiBindings.Nominal.Catalogue
import ApiBindings.Proofs.Steps
/-!
# Growth of the catalogue

A catalogue only grows.  Every operation on it either leaves it alone or puts
one entry behind the others, so that whatever was found by its name before is
found by that name afterwards.  The inversion lemmas below say everything that
a successful registration can have done.
-/

namespace ApiBindings

@[simp] theorem Text.find?_nil {α : Type} (key : Text) :
    Text.find? key ([] : List (Text × α)) = none := rfl

theorem Text.find?_cons {α : Type} (key k : Text) (value : α)
    (rest : List (Text × α)) :
    Text.find? key ((k, value) :: rest) =
      if key = k then some value else Text.find? key rest := by
  by_cases h : key = k
  · simp [Text.find?, h]
  · have hbeq : (key == k) = false := by simpa using h
    simp [Text.find?, List.lookup_cons, h, hbeq]

theorem Json.isText_iff {value : Json} {text : Text} :
    value.isText text = true ↔ value = .str text := by
  cases value <;> simp [Json.isText, eq_comm]

theorem Json.same_str_right {value : Json} {text : Text} :
    value.same (.str text) = true ↔ value = .str text := by
  cases value <;> simp [Json.same, Json.asInt?]

theorem Json.same_str_left {value : Json} {text : Text} :
    Json.same (.str text) value = true ↔ value = .str text := by
  cases value <;> simp [Json.same, Json.asInt?, eq_comm]

theorem Json.same_self_of_isKey {value : Json} (hkey : value.isKey = true) :
    value.same value = true := by
  cases value <;> simp_all [Json.same, Json.asInt?, Json.isKey, Binary64.sameNumber]

theorem mem_globalClasses {catalogue : Catalogue} {type : ClassType} :
    type ∈ catalogue.globalClasses ↔ .ofClass type ∈ catalogue.globals := by
  unfold Catalogue.globalClasses
  rw [List.mem_filterMap]
  constructor
  · rintro ⟨found, hfound, hclass⟩
    cases found <;> simp_all [NominalType.asClass?]
  · exact fun hmem => ⟨_, hmem, rfl⟩

theorem mem_globalEnums {catalogue : Catalogue} {enum : EnumType} :
    enum ∈ catalogue.globalEnums ↔ .ofEnum enum ∈ catalogue.globals := by
  unfold Catalogue.globalEnums
  rw [List.mem_filterMap]
  constructor
  · rintro ⟨found, hfound, henum⟩
    cases found <;> simp_all [NominalType.asEnum?]
  · exact fun hmem => ⟨_, hmem, rfl⟩

namespace Catalogue

/-! ## Local classes -/

theorem find?_updateOwner (owner other : Text)
    (change : List ClassType → List ClassType)
    (locals : List (Text × List ClassType)) :
    (Text.find? other (updateOwner owner change locals)).getD [] =
      if other = owner then change ((Text.find? owner locals).getD [])
      else (Text.find? other locals).getD [] := by
  induction locals with
  | nil =>
      by_cases h : other = owner <;> simp [updateOwner, Text.find?_cons, h]
  | cons entry rest ih =>
      obtain ⟨o, classes⟩ := entry
      by_cases ho : o = owner
      · subst o
        by_cases h : other = owner <;> simp [updateOwner, Text.find?_cons, h]
      · by_cases h : other = o
        · subst other
          simp [updateOwner, Text.find?_cons, ho]
        · have ho' : ¬owner = o := fun heq => ho heq.symm
          simp only [updateOwner, if_neg ho, Text.find?_cons, if_neg h, if_neg ho']
          exact ih

@[simp] theorem localClasses_openOwner (catalogue : Catalogue) (owner other : Text) :
    (catalogue.openOwner owner).localClasses other = catalogue.localClasses other := by
  unfold localClasses openOwner
  rw [find?_updateOwner]
  by_cases h : other = owner <;> simp [h]

theorem localClasses_addLocal (catalogue : Catalogue) (owner other : Text)
    (type : ClassType) :
    (catalogue.addLocal owner type).localClasses other =
      if other = owner then catalogue.localClasses owner ++ [type]
      else catalogue.localClasses other := by
  unfold localClasses addLocal
  rw [find?_updateOwner]

@[simp] theorem globals_addGlobal (catalogue : Catalogue) (type : NominalType) :
    (catalogue.addGlobal type).globals = catalogue.globals ++ [type] := rfl

/-! ## What a registration does -/

theorem addClass_ok {catalogue after : Catalogue} {new type : ClassType}
    (hadd : catalogue.addClass new = .ok (type, after)) :
    new.name.isKey = true ∧
      ((new.scope = .ownerLocal ∧
          catalogue.local? (new.owner.getD []) new.name = some type ∧
          after = catalogue) ∨
        (new.scope = .ownerLocal ∧
          catalogue.local? (new.owner.getD []) new.name = none ∧
          type = new ∧ after = catalogue.addLocal (new.owner.getD []) new) ∨
        (new.scope = .global ∧ catalogue.global? new.name = none ∧
          type = new ∧ after = catalogue.addGlobal (.ofClass new)) ∨
        (new.scope = .global ∧
          catalogue.global? new.name = some (.ofClass type) ∧
          type.agrees new = true ∧ after = catalogue)) := by
  unfold addClass at hadd
  by_cases hkey : new.name.isKey = true
  · refine ⟨hkey, ?_⟩
    simp only [hkey, Bool.not_true, Bool.false_eq_true, if_false] at hadd
    cases hscope : new.scope with
    | ownerLocal =>
        rw [hscope] at hadd
        cases hlocal : catalogue.local? (new.owner.getD []) new.name with
        | some existing =>
            simp only [hlocal, Except.ok.injEq, Prod.mk.injEq] at hadd
            simp [hadd]
        | none =>
            simp only [hlocal, Except.ok.injEq, Prod.mk.injEq] at hadd
            simp [hadd.1.symm, hadd.2.symm]
    | global =>
        rw [hscope] at hadd
        cases hglobal : catalogue.global? new.name with
        | none =>
            simp only [hglobal, Except.ok.injEq, Prod.mk.injEq] at hadd
            simp [hadd.1.symm, hadd.2.symm]
        | some existing =>
            cases existing with
            | ofEnum enum => simp [hglobal] at hadd
            | ofClass existing =>
                simp only [hglobal] at hadd
                split at hadd
                next hagrees =>
                  simp only [Except.ok.injEq, Prod.mk.injEq] at hadd
                  obtain ⟨rfl, rfl⟩ := hadd
                  simp [hagrees]
                next => simp at hadd
  · simp [hkey] at hadd

theorem enumFor_ok {catalogue after : Catalogue} {name path : Text}
    {members : List TypeNode} {enum : EnumType}
    (hadd : catalogue.enumFor name path members = .ok (enum, after)) :
    ∃ values, enumValues name path [] members = .ok values ∧
      ((catalogue.global? (.str name) = none ∧ enum = ⟨name, values, path⟩ ∧
          after = catalogue.addGlobal (.ofEnum enum)) ∨
        (catalogue.global? (.str name) = some (.ofEnum enum) ∧
          enum.values = values ∧ after = catalogue)) := by
  unfold enumFor at hadd
  by_cases hname : name = ""
  · simp [hname, bind, Except.bind, throw, throwThe, MonadExceptOf.throw] at hadd
  · cases hvalues : enumValues name path [] members with
    | error failure =>
        simp [hname, hvalues, bind, Except.bind] at hadd
    | ok values =>
        refine ⟨values, rfl, ?_⟩
        simp only [hname, hvalues, bind, Except.bind, if_false, addEnum] at hadd
        cases hglobal : catalogue.global? (.str name) with
        | none =>
            simp only [hglobal, Except.ok.injEq, Prod.mk.injEq] at hadd
            simp [hadd.1.symm, hadd.2.symm]
        | some existing =>
            cases existing with
            | ofClass type => simp [hglobal] at hadd
            | ofEnum existing =>
                simp only [hglobal] at hadd
                split at hadd
                next hsame =>
                  simp only [Except.ok.injEq, Prod.mk.injEq] at hadd
                  obtain ⟨rfl, rfl⟩ := hadd
                  simp [hsame]
                next => simp at hadd

/-! ## Growth -/

theorem global?_some {catalogue : Catalogue} {name : Json} {type : NominalType}
    (hfound : catalogue.global? name = some type) :
    type ∈ catalogue.globals ∧ type.name.same name = true :=
  ⟨List.mem_of_find?_eq_some hfound,
    List.find?_some (p := fun type : NominalType => type.name.same name) hfound⟩

theorem global?_addGlobal {catalogue : Catalogue} {type : NominalType}
    (hkey : type.name.isKey = true) (hnew : catalogue.global? type.name = none) :
    (catalogue.addGlobal type).global? type.name = some type := by
  unfold global? at hnew ⊢
  simp [List.find?_append, hnew, Json.same_self_of_isKey hkey]

theorem local?_addLocal {catalogue : Catalogue} {owner : Text} {type : ClassType}
    (hkey : type.name.isKey = true)
    (hnew : catalogue.local? owner type.name = none) :
    (catalogue.addLocal owner type).local? owner type.name = some type := by
  unfold local? at hnew ⊢
  simp [localClasses_addLocal, List.find?_append, hnew,
    Json.same_self_of_isKey hkey]

theorem addClass_found {catalogue after : Catalogue} {new type : ClassType}
    (hadd : catalogue.addClass new = .ok (type, after)) :
    (new.scope = .global ∧ after.global? new.name = some (.ofClass type)) ∨
      (new.scope = .ownerLocal ∧
        after.local? (new.owner.getD []) new.name = some type) := by
  obtain ⟨hkey, ⟨hscope, hfound, rfl⟩ | ⟨hscope, hnew, rfl, rfl⟩ |
    ⟨hscope, hnew, rfl, rfl⟩ | ⟨hscope, hfound, -, rfl⟩⟩ := addClass_ok hadd
  · exact .inr ⟨hscope, hfound⟩
  · exact .inr ⟨hscope, local?_addLocal hkey hnew⟩
  · exact .inl ⟨hscope, @global?_addGlobal _ (.ofClass _) hkey hnew⟩
  · exact .inl ⟨hscope, hfound⟩

theorem enumFor_found {catalogue after : Catalogue} {name path : Text}
    {members : List TypeNode} {enum : EnumType}
    (hadd : catalogue.enumFor name path members = .ok (enum, after)) :
    enum.name = name ∧ after.global? (.str name) = some (.ofEnum enum) := by
  obtain ⟨values, -, ⟨hnew, rfl, rfl⟩ | ⟨hfound, -, rfl⟩⟩ := enumFor_ok hadd
  · exact ⟨rfl, @global?_addGlobal _ (.ofEnum _) rfl hnew⟩
  · refine ⟨?_, hfound⟩
    have hsame := (global?_some hfound).2
    simpa [NominalType.name] using Json.same_str_right.mp hsame

/-- What one catalogue holds is what the other one starts with. -/
structure GrowsTo (before after : Catalogue) : Prop where
  globals : before.globals <+: after.globals
  locals : ∀ owner, before.localClasses owner <+: after.localClasses owner

theorem GrowsTo.refl (catalogue : Catalogue) : catalogue.GrowsTo catalogue :=
  ⟨List.prefix_rfl, fun _ => List.prefix_rfl⟩

theorem GrowsTo.trans {a b c : Catalogue} (hab : a.GrowsTo b)
    (hbc : b.GrowsTo c) : a.GrowsTo c :=
  ⟨hab.globals.trans hbc.globals,
    fun owner => (hab.locals owner).trans (hbc.locals owner)⟩

theorem GrowsTo.global? {before after : Catalogue} (hgrows : before.GrowsTo after)
    {name : Json} {type : NominalType}
    (hfound : before.global? name = some type) :
    after.global? name = some type := by
  obtain ⟨added, hadded⟩ := hgrows.globals
  unfold Catalogue.global? at hfound ⊢
  rw [← hadded, List.find?_append, hfound]
  rfl

theorem GrowsTo.local? {before after : Catalogue} (hgrows : before.GrowsTo after)
    {owner : Text} {name : Json} {type : ClassType}
    (hfound : before.local? owner name = some type) :
    after.local? owner name = some type := by
  obtain ⟨added, hadded⟩ := hgrows.locals owner
  unfold Catalogue.local? at hfound ⊢
  rw [← hadded, List.find?_append, hfound]
  rfl

theorem growsTo_openOwner (catalogue : Catalogue) (owner : Text) :
    catalogue.GrowsTo (catalogue.openOwner owner) where
  globals := List.prefix_rfl
  locals other := by simp

theorem growsTo_addGlobal (catalogue : Catalogue) (type : NominalType) :
    catalogue.GrowsTo (catalogue.addGlobal type) where
  globals := List.prefix_append _ _
  locals _ := List.prefix_rfl

theorem growsTo_addLocal (catalogue : Catalogue) (owner : Text) (type : ClassType) :
    catalogue.GrowsTo (catalogue.addLocal owner type) where
  globals := List.prefix_rfl
  locals other := by
    rw [localClasses_addLocal]
    by_cases h : other = owner
    · simp [h]
    · simp [h]

theorem addClass_growsTo {catalogue after : Catalogue} {new type : ClassType}
    (hadd : catalogue.addClass new = .ok (type, after)) :
    catalogue.GrowsTo after := by
  obtain ⟨-, ⟨-, -, rfl⟩ | ⟨-, -, -, rfl⟩ | ⟨-, -, -, rfl⟩ | ⟨-, -, -, rfl⟩⟩ :=
    addClass_ok hadd
  · exact .refl _
  · exact growsTo_addLocal _ _ _
  · exact growsTo_addGlobal _ _
  · exact .refl _

theorem enumFor_growsTo {catalogue after : Catalogue} {name path : Text}
    {members : List TypeNode} {enum : EnumType}
    (hadd : catalogue.enumFor name path members = .ok (enum, after)) :
    catalogue.GrowsTo after := by
  obtain ⟨values, -, ⟨-, -, rfl⟩ | ⟨-, -, rfl⟩⟩ := enumFor_ok hadd
  · exact growsTo_addGlobal _ _
  · exact .refl _

end Catalogue
end ApiBindings
