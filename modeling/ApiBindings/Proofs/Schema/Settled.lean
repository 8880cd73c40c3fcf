import ApiBindings.Proofs.Schema.Node
/-!
# Restricting settles a description

A value is settled if nothing in it is to be dropped and each node in it has the
name and the type that it is given.  Restricting leaves a settled value as it is,
and whatever it leaves of a value is settled.  That one pass is enough takes that
what a node declares for the language is itself restricted in that pass, and
comes out of it saying the same or nothing.
-/

namespace ApiBindings

namespace Availability

variable {language : Text}

/-- The name and the type that a node is given are those that it has. -/
def SettledNode (language : Text) (entries : List (Text × Json)) : Prop :=
  ∃ name given, alias? language entries = .ok name ∧ givenType? language entries = .ok given ∧
    ∀ key, Text.find? key (applied name given entries) = Text.find? key entries

/-- Everything inside a value is for the language, and each node in it is settled. -/
inductive Settled (language : Text) : Json → Prop
  | scalar {value : Json} (harr : ∀ items, value ≠ .arr items)
      (hobj : ∀ entries, value ≠ .obj entries) : Settled language value
  | arr {items : List Json} (havailable : ∀ item ∈ items, isAvailable language item = .ok true)
      (hsettled : ∀ item ∈ items, Settled language item) : Settled language (.arr items)
  | obj {entries : List (Text × Json)} (hnode : SettledNode language entries)
      (havailable : ∀ entry ∈ entries, isAvailable language entry.2 = .ok true)
      (hsettled : ∀ entry ∈ entries, Settled language entry.2) : Settled language (.obj entries)

/-! ## What is settled stays as it is -/

theorem setEntry_of_find? {key : Text} {value : Json} {entries : List (Text × Json)}
    (hfound : Text.find? key entries = some value) : Json.setEntry key value entries = entries := by
  induction entries with
  | nil => simp at hfound
  | cons entry rest ih =>
      obtain ⟨k, v⟩ := entry
      rw [Text.find?_cons] at hfound
      rw [Json.setEntry]
      by_cases hkey : key = k
      · obtain rfl : v = value := by simpa [hkey] using hfound
        simp [hkey]
      · rw [if_neg hkey] at hfound
        rw [if_neg (Ne.symm hkey), ih hfound]

theorem restrictItems_eq_self {items : List Json}
    (havailable : ∀ item ∈ items, isAvailable language item = .ok true)
    (hkept : ∀ item ∈ items, restrictAt language [] item = .ok (item, 0)) :
    restrictItems language items = .ok (items, 0) := by
  induction items with
  | nil => rfl
  | cons item rest ih =>
      obtain ⟨hitem, hrest⟩ := List.forall_mem_cons.mp havailable
      obtain ⟨hitem', hrest'⟩ := List.forall_mem_cons.mp hkept
      rw [restrictItems, hitem, hitem', ih hrest hrest']
      rfl

theorem restrictEntries_eq_self {name type : Option Outcome} {entries : List (Text × Json)}
    (hkept : ∀ entry ∈ entries,
      entryOutcome language name type entry.1 entry.2 = .ok (some entry.2, 0)) :
    restrictEntries language name type entries = .ok (entries, 0) := by
  induction entries with
  | nil => rfl
  | cons entry rest ih =>
      obtain ⟨hentry, hrest⟩ := List.forall_mem_cons.mp hkept
      rw [restrictEntries_cons, hentry, ih hrest]
      rfl

theorem plainOutcome_eq_self {value : Json} (havailable : isAvailable language value = .ok true)
    (hkept : restrictAt language [] value = .ok (value, 0)) :
    plainOutcome language value = .ok (some value, 0) := by
  rw [plainOutcome, havailable, hkept]
  rfl

theorem givenOutcome_eq_self {entries : List (Text × Json)} {given : Json}
    (hkept : plainOutcome language (typeFor given) = .ok (some (typeFor given), 0)) :
    givenOutcome language entries given = .ok (some (typeFor given), 0) := by
  cases given with
  | str name => rfl
  | _ =>
      rw [typeFor] at hkept
      · simp [givenOutcome, typeFor, hkept, bind, Except.bind, pure, Except.pure]
      · simp

theorem entryOutcome_eq_self {name : Option Text} {given : Option Json}
    {entries : List (Text × Json)} (hkeys : (entries.map Prod.fst).Nodup)
    (hfound : ∀ key, Text.find? key (applied name given entries) = Text.find? key entries)
    (hplain : ∀ entry ∈ entries, plainOutcome language entry.2 = .ok (some entry.2, 0))
    {entry : Text × Json} (hmem : entry ∈ entries) :
    entryOutcome language (name.map aliasOutcome) (given.map (givenOutcome language entries))
      entry.1 entry.2 = .ok (some entry.2, 0) := by
  obtain ⟨key, value⟩ := entry
  have hvalue : Text.find? key entries = some value := Json.find?_of_mem hkeys hmem
  have hown : Text.find? key (applied name given entries) = some value := (hfound key).trans hvalue
  have hself : plainOutcome language value = .ok (some value, 0) := hplain _ hmem
  rw [entryOutcome]
  split
  next hkey =>
    subst hkey
    cases name with
    | none => exact hself
    | some text =>
        rw [find?_applied_name] at hown
        rw [← Option.some.inj hown]
        rfl
  next =>
    split
    next hkey =>
      subst hkey
      cases given with
      | none => exact hself
      | some type =>
          rw [find?_applied_type] at hown
          rw [← Option.some.inj hown] at hself ⊢
          exact givenOutcome_eq_self hself
    next => exact hself

theorem withPlaces_eq_self {name : Option Text} {given : Option Json}
    {entries : List (Text × Json)}
    (hfound : ∀ key, Text.find? key (applied name given entries) = Text.find? key entries) :
    withPlaces (name.map aliasOutcome) (given.map (givenOutcome language entries)) entries =
      entries := by
  have hname : placeFor "name" (name.map aliasOutcome) entries = [] := by
    cases name with
    | none => rfl
    | some text => simp [placeFor, ← hfound, find?_applied_name]
  have htype : placeFor "type" (given.map (givenOutcome language entries)) entries = [] := by
    cases given with
    | none => rfl
    | some type => simp [placeFor, ← hfound, find?_applied_type]
  simp [withPlaces, hname, htype]

theorem restrictAt_of_settled {value : Json} (hsettled : Settled language value)
    (hproper : value.Proper) : restrictAt language [] value = .ok (value, 0) := by
  induction hsettled with
  | scalar harr hobj =>
      rw [restrictAt]
      · simpa using harr
      · simpa using hobj
  | @arr items havailable _ ih =>
      rw [Json.Proper] at hproper
      have hitems : restrictItems language items = .ok (items, 0) :=
        restrictItems_eq_self havailable fun item hitem =>
          ih item hitem (Json.properItems_iff.mp hproper item hitem)
      rw [restrictAt, hitems]
      rfl
  | @obj entries hnode havailable _ ih =>
      rw [Json.Proper] at hproper
      obtain ⟨name, given, hname, hgiven, hfound⟩ := hnode
      have hplain : ∀ entry ∈ entries,
          plainOutcome language entry.2 = .ok (some entry.2, 0) := fun entry hentry =>
        plainOutcome_eq_self (havailable entry hentry) (ih entry hentry (hproper.2.of_mem hentry))
      have hkept : restrictEntries language (name.map aliasOutcome)
          (given.map (givenOutcome language entries)) entries = .ok (entries, 0) :=
        restrictEntries_eq_self fun _ => entryOutcome_eq_self hproper.1 hfound hplain
      have hrenamed : (name.map fun name =>
          Json.setEntry "name" (.str name) entries).getD entries = entries := by
        cases name with
        | none => rfl
        | some text => exact setEntry_of_find? ((hfound "name").symm.trans (find?_applied_name ..))
      rw [restrictAt_obj, hname]
      simp only [bind, Except.bind, hrenamed, hgiven, withPlaces_eq_self hfound, hkept]
      rfl

/-! ## What is left is settled -/

/-- What is left of a value is of its kind; a list or an object may have lost
some of what was in it. -/
theorem left?_cases {value left : Json} (hleft : left? language value = some left) :
    (∃ entries, value = .obj entries) ∧ (∃ kept, left = .obj kept) ∨
      (∃ items kept dropped, value = .arr items ∧ left = .arr kept ∧
        restrictItems language items = .ok (kept, dropped)) ∨
      left = value ∧ (∀ items, value ≠ .arr items) ∧ ∀ entries, value ≠ .obj entries := by
  obtain ⟨-, dropped, hrun⟩ := left?_eq_some.mp hleft
  cases value with
  | obj entries =>
      rw [restrictAt_obj] at hrun
      obtain ⟨name, -, hrun⟩ := exists_of_bind_ok hrun
      obtain ⟨given, -, hrun⟩ := exists_of_bind_ok hrun
      obtain ⟨⟨kept, _⟩, -, hrun⟩ := exists_of_bind_ok hrun
      obtain ⟨rfl, -⟩ := Prod.ext_iff.mp (Except.ok.inj hrun)
      exact .inl ⟨⟨entries, rfl⟩, kept, rfl⟩
  | arr items =>
      rw [restrictAt] at hrun
      obtain ⟨⟨kept, _⟩, hkept, hrun⟩ := exists_of_bind_ok hrun
      obtain ⟨rfl, -⟩ := Prod.ext_iff.mp (Except.ok.inj hrun)
      exact .inr (.inl ⟨items, kept, _, rfl, rfl, hkept⟩)
  | _ =>
      rw [restrictAt] at hrun
      · obtain ⟨rfl, -⟩ := Prod.ext_iff.mp (Except.ok.inj hrun)
        simp
      all_goals simp

/-- An object that is left is left of an object, and other entries than the name
and the type were left of those of the same keys. -/
theorem find?_of_left?_obj {value : Json} {kept : List (Text × Json)} (hproper : value.Proper)
    (hleft : left? language value = some (.obj kept)) :
    ∃ entries, value = .obj entries ∧ ∀ key : Text, key ≠ "name" → key ≠ "type" →
      Text.find? key kept = (Text.find? key entries).bind (left? language) := by
  obtain ⟨⟨entries, rfl⟩, -⟩ | ⟨items, _, _, -, hother, -⟩ | ⟨rfl, -, hother⟩ := left?_cases hleft
  · rw [Json.Proper] at hproper
    obtain ⟨-, dropped, hrun⟩ := left?_eq_some.mp hleft
    obtain ⟨name, given, _, -, -, hsame, -, hfound⟩ := restrictAt_obj_ok hproper.1 hrun
    obtain rfl := Json.obj.inj hsame
    refine ⟨entries, rfl, fun key hname htype => ?_⟩
    rw [hfound, find?_applied_of_ne hname htype]
  · cases hother
  · exact absurd rfl (hother kept)

theorem declared?_kept {entries kept : List (Text × Json)} {key : Text} {value : Json}
    (hproper : Json.ProperEntries entries)
    (hlangs : Text.find? "langs" kept = (Text.find? "langs" entries).bind (left? language))
    (hname : key ≠ "name") (htype : key ≠ "type") (hkept : declared? key kept = some value) :
    ∃ before, declared? key entries = some before ∧ left? language before = some value := by
  obtain ⟨langsKept, hlangsKept, hvalue⟩ := declared?_eq_some.mp hkept
  rw [hlangs] at hlangsKept
  obtain ⟨declared, hdeclared, hleft⟩ := Option.bind_eq_some_iff.mp hlangsKept
  have hproperDeclared : declared.Proper := hproper.of_mem (Json.mem_of_find? hdeclared)
  obtain ⟨langs, rfl, hfound⟩ := find?_of_left?_obj hproperDeclared hleft
  rw [hfound key hname htype] at hvalue
  obtain ⟨before, hbefore, hleft⟩ := Option.bind_eq_some_iff.mp hvalue
  exact ⟨before, declared?_eq_some.mpr ⟨langs, hdeclared, hbefore⟩, hleft⟩

theorem restrictItems_cons_ok {item : Json} {rest kept : List Json} {dropped : Nat}
    (hrun : restrictItems language (item :: rest) = .ok (kept, dropped)) :
    ∃ others droppedOthers, restrictItems language rest = .ok (others, droppedOthers) ∧
      (isAvailable language item = .ok false ∧ kept = others ∨
        ∃ left, left? language item = some left ∧ kept = left :: others) := by
  rw [restrictItems] at hrun
  obtain ⟨available, havailable, hrun⟩ := exists_of_bind_ok hrun
  cases available with
  | false =>
      obtain ⟨⟨others, _⟩, hothers, hrun⟩ := exists_of_bind_ok hrun
      obtain ⟨rfl, -⟩ := Prod.ext_iff.mp (Except.ok.inj hrun)
      exact ⟨others, _, hothers, .inl ⟨havailable, rfl⟩⟩
  | true =>
      obtain ⟨⟨left, _⟩, hleft, hrun⟩ := exists_of_bind_ok hrun
      obtain ⟨⟨others, _⟩, hothers, hrun⟩ := exists_of_bind_ok hrun
      obtain ⟨rfl, -⟩ := Prod.ext_iff.mp (Except.ok.inj hrun)
      exact ⟨others, _, hothers, .inr ⟨left, left?_eq_some.mpr ⟨havailable, _, hleft⟩, rfl⟩⟩

theorem exists_of_mem_restrictItems {items kept : List Json} {dropped : Nat} {left : Json}
    (hrun : restrictItems language items = .ok (kept, dropped)) (hmem : left ∈ kept) :
    ∃ item ∈ items, left? language item = some left := by
  induction items generalizing kept dropped with
  | nil =>
      obtain ⟨rfl, -⟩ := Prod.ext_iff.mp (Except.ok.inj hrun)
      simp at hmem
  | cons item rest ih =>
      obtain ⟨others, _, hothers, ⟨-, rfl⟩ | ⟨first, hfirst, rfl⟩⟩ := restrictItems_cons_ok hrun
      · obtain ⟨before, hbefore, hleft⟩ := ih hothers hmem
        exact ⟨before, List.mem_cons_of_mem _ hbefore, hleft⟩
      · rcases List.mem_cons.mp hmem with rfl | hmem
        · exact ⟨item, List.mem_cons_self, hfirst⟩
        · obtain ⟨before, hbefore, hleft⟩ := ih hothers hmem
          exact ⟨before, List.mem_cons_of_mem _ hbefore, hleft⟩

theorem any_isText_restrictItems {items kept : List Json} {dropped : Nat} {text : Text}
    (hrun : restrictItems language items = .ok (kept, dropped))
    (hany : items.any (Json.isText text) = true) : kept.any (Json.isText text) = true := by
  induction items generalizing kept dropped with
  | nil => simp at hany
  | cons item rest ih =>
      obtain ⟨others, _, hothers, hitem⟩ := restrictItems_cons_ok hrun
      rw [List.any_cons, Bool.or_eq_true] at hany
      rcases hany with htext | hany
      · -- a text is for every language, and it is left as it is
        cases item <;> simp only [Json.isText, Bool.false_eq_true] at htext
        obtain ⟨hexcluded, -⟩ | ⟨left, hleft, rfl⟩ := hitem
        · cases hexcluded
        · obtain rfl := Option.some.inj hleft
          simp [Json.isText, htext]
      · have hothers := ih hothers hany
        obtain ⟨-, rfl⟩ | ⟨left, -, rfl⟩ := hitem
        · exact hothers
        · simp [hothers]

/-- A node that is for the language says so also when it is restricted. -/
theorem isAvailable_kept {entries kept : List (Text × Json)}
    (hproper : Json.ProperEntries entries)
    (hlangs : Text.find? "langs" kept = (Text.find? "langs" entries).bind (left? language))
    (havailable : isAvailable language (.obj entries) = .ok true) :
    isAvailable language (.obj kept) = .ok true := by
  rw [isAvailable_obj] at havailable ⊢
  cases honly : declared? "only" kept with
  | none => rfl
  | some only =>
      obtain ⟨before, hbefore, hleft⟩ :=
        declared?_kept hproper hlangs (by decide) (by decide) honly
      rw [hbefore] at havailable
      obtain ⟨⟨_, rfl⟩, -⟩ | ⟨allowed, allowedKept, dropped, rfl, rfl, hrun⟩ | ⟨rfl, harr, -⟩ :=
        left?_cases hleft
      · simp at havailable
      · simp only [Except.ok.injEq, Bool.or_eq_true, List.isEmpty_iff] at havailable ⊢
        rcases havailable with rfl | hany
        · obtain ⟨rfl, -⟩ := Prod.ext_iff.mp (Except.ok.inj hrun)
          exact .inl rfl
        · exact .inr (any_isText_restrictItems hrun hany)
      · cases only <;> simp at havailable
        exact absurd rfl (harr _)

theorem declared?_obj_kept {entries kept : List (Text × Json)} {key : Text}
    (hword : isEntryWord language = false) (hproper : Json.ProperEntries entries)
    (hlangs : Text.find? "langs" kept = (Text.find? "langs" entries).bind (left? language))
    (hname : key ≠ "name") (htype : key ≠ "type")
    (hobj : ∀ value, declared? key entries = some value → ∃ declared, value = .obj declared) :
    declared? key kept = none ∨
      ∃ declared declaredKept, declared? key entries = some (.obj declared) ∧
        (Json.obj declared).Proper ∧ declared? key kept = some (.obj declaredKept) ∧
        Text.find? language declaredKept =
          (Text.find? language declared).bind (left? language) := by
  have hlanguage : (language ≠ "name" ∧ language ≠ "type") ∧ language ≠ "langs" := by
    simpa [isEntryWord] using hword
  cases hkept : declared? key kept with
  | none => exact .inl rfl
  | some value =>
      obtain ⟨before, hbefore, hleft⟩ := declared?_kept hproper hlangs hname htype hkept
      obtain ⟨declared, rfl⟩ := hobj before hbefore
      obtain ⟨-, declaredKept, rfl⟩ | ⟨_, _, _, heq, -⟩ | ⟨-, -, hother⟩ := left?_cases hleft
      · have hproperDeclared : (Json.obj declared).Proper := by
          obtain ⟨langs, hfound, hdeclared⟩ := declared?_eq_some.mp hbefore
          have hproperLangs : (Json.obj langs).Proper := hproper.of_mem (Json.mem_of_find? hfound)
          rw [Json.Proper] at hproperLangs
          exact hproperLangs.2.of_mem (Json.mem_of_find? hdeclared)
        obtain ⟨_, hsame, hfound⟩ := find?_of_left?_obj hproperDeclared hleft
        obtain rfl := Json.obj.inj hsame
        exact .inr ⟨declared, declaredKept, hbefore, hproperDeclared, rfl,
          hfound language hlanguage.1.1 hlanguage.1.2⟩
      · cases heq
      · exact absurd rfl (hother declared)

/-- A restricted node has the same name of its own for the language, or none. -/
theorem alias?_kept {entries kept : List (Text × Json)} {name : Option Text}
    (hword : isEntryWord language = false) (hproper : Json.ProperEntries entries)
    (hlangs : Text.find? "langs" kept = (Text.find? "langs" entries).bind (left? language))
    (hname : alias? language entries = .ok name) :
    alias? language kept = .ok none ∨ alias? language kept = .ok name := by
  have hobj : ∀ value, declared? "aliases" entries = some value →
      ∃ declared, value = .obj declared := by
    intro value hvalue
    rw [alias?_eq, hvalue] at hname
    cases value <;> simp at hname ⊢
  rw [alias?_eq] at hname
  rw [alias?_eq]
  obtain hnone | ⟨aliases, aliasesKept, haliases, -, hkept, hfound⟩ :=
    declared?_obj_kept hword hproper hlangs (by decide) (by decide) hobj
  · rw [hnone]
    exact .inl rfl
  · rw [haliases] at hname
    rw [hkept]
    dsimp only at hname ⊢
    rw [hfound]
    cases hown : Text.find? language aliases with
    | none => exact .inl rfl
    | some own =>
        rw [hown] at hname
        cases own with
        | null => exact .inl rfl
        | str text =>
            right
            dsimp only at hname
            split at hname
            next => simp at hname
            next hgiven => rw [Option.bind_some, left?_str, ← hname]; simp [hgiven]
        | _ => simp at hname

/-- A node that has a text for its name is left with one. -/
theorem left?_named {entries : List (Text × Json)} {left : Json} {name : Text}
    (hproper : Json.Proper (.obj entries))
    (hname : Json.get? "name" (.obj entries) = some (.str name))
    (hleft : left? language (.obj entries) = some left) :
    ∃ kept nameKept, left = .obj kept ∧ Text.find? "name" kept = some (.str nameKept) := by
  rw [Json.Proper] at hproper
  obtain ⟨-, dropped, hrun⟩ := left?_eq_some.mp hleft
  obtain ⟨own, given, kept, -, -, rfl, -, hfound⟩ := restrictAt_obj_ok hproper.1 hrun
  have hkept := hfound "name"
  rw [find?_applied] at hkept
  cases own with
  | none =>
      have hname : Text.find? "name" entries = some (.str name) := hname
      refine ⟨kept, name, rfl, ?_⟩
      simpa [hname, left?_str, show ("name" : Text) ≠ "type" by decide] using hkept
  | some text => exact ⟨kept, text, rfl, by simpa [left?_str] using hkept⟩

/-- A restricted node is given what is left of its type for the language, or none. -/
theorem givenType?_kept {entries kept : List (Text × Json)} {given : Option Json}
    (hword : isEntryWord language = false) (hproper : Json.ProperEntries entries)
    (hlangs : Text.find? "langs" kept = (Text.find? "langs" entries).bind (left? language))
    (hgiven : givenType? language entries = .ok given) :
    givenType? language kept = .ok none ∨
      ∃ type typeKept, given = some type ∧ givenType? language kept = .ok (some typeKept) ∧
        left? language (typeFor type) = some (typeFor typeKept) := by
  have hobj : ∀ value, declared? "types" entries = some value →
      ∃ declared, value = .obj declared := by
    intro value hvalue
    rw [givenType?_eq, hvalue] at hgiven
    cases value <;> simp at hgiven ⊢
  rw [givenType?_eq] at hgiven
  rw [givenType?_eq]
  obtain hnone | ⟨types, typesKept, htypes, hproperTypes, hkept, hfound⟩ :=
    declared?_obj_kept hword hproper hlangs (by decide) (by decide) hobj
  · rw [hnone]
    exact .inl rfl
  · rw [htypes] at hgiven
    rw [hkept]
    dsimp only at hgiven ⊢
    rw [hfound]
    cases hown : Text.find? language types with
    | none => exact .inl rfl
    | some own =>
        rw [hown] at hgiven
        cases own with
        | null => exact .inl rfl
        | str text =>
            exact .inr ⟨.str text, .str text, (Except.ok.inj hgiven).symm, rfl, rfl⟩
        | obj entries =>
            dsimp only at hgiven
            split at hgiven
            next text htext =>
              cases hleft : left? language (.obj entries) with
              | none => simp [hleft]
              | some left =>
                  rw [Json.Proper] at hproperTypes
                  have hproperOwn : (Json.obj entries).Proper :=
                    hproperTypes.2.of_mem (Json.mem_of_find? hown)
                  obtain ⟨own, nameKept, rfl, hnameKept⟩ :=
                    left?_named hproperOwn htext hleft
                  refine .inr ⟨.obj entries, .obj own, (Except.ok.inj hgiven).symm, ?_, hleft⟩
                  simp [hleft, Json.get?, hnameKept]
            next => simp at hgiven
        | _ => simp [Json.get?] at hgiven

/-- A node comes out of being restricted with the name and the type that it is given. -/
theorem settledNode_kept {entries kept : List (Text × Json)} {name : Option Text}
    {given : Option Json} (hword : isEntryWord language = false)
    (hproper : Json.ProperEntries entries) (hname : alias? language entries = .ok name)
    (hgiven : givenType? language entries = .ok given)
    (hfound : ∀ key, Text.find? key kept =
      (Text.find? key (applied name given entries)).bind (left? language)) :
    SettledNode language kept := by
  have hlangs : Text.find? "langs" kept = (Text.find? "langs" entries).bind (left? language) := by
    rw [hfound, find?_applied_of_ne (by decide) (by decide)]
  have hown : ∃ own, alias? language kept = .ok own ∧
      ∀ text, own = some text → Text.find? "name" kept = some (.str text) := by
    rcases alias?_kept hword hproper hlangs hname with hown | hown
    · exact ⟨none, hown, by simp⟩
    · refine ⟨name, hown, ?_⟩
      rintro text rfl
      rw [hfound, find?_applied_name]
      rfl
  have htype : ∃ type, givenType? language kept = .ok type ∧
      ∀ value, type = some value → Text.find? "type" kept = some (typeFor value) := by
    obtain htype | ⟨type, typeKept, rfl, htype, hleft⟩ :=
      givenType?_kept hword hproper hlangs hgiven
    · exact ⟨none, htype, by simp⟩
    · refine ⟨some typeKept, htype, ?_⟩
      rintro value heq
      obtain rfl := Option.some.inj heq
      rw [hfound, find?_applied_type]
      exact hleft
  obtain ⟨own, hown, hownName⟩ := hown
  obtain ⟨type, htype, hownType⟩ := htype
  refine ⟨own, type, hown, htype, fun key => ?_⟩
  rw [find?_applied]
  split
  next h =>
    obtain ⟨rfl, hsome⟩ := h
    obtain ⟨text, rfl⟩ := Option.isSome_iff_exists.mp hsome
    exact (hownName text rfl).symm
  next =>
    split
    next h =>
      obtain ⟨rfl, hsome⟩ := h
      obtain ⟨value, rfl⟩ := Option.isSome_iff_exists.mp hsome
      exact (hownType value rfl).symm
    next => rfl

theorem settled_nameOnly (name : Text) : Settled language (.obj [("name", .str name)]) := by
  refine .obj ⟨none, none, rfl, rfl, fun key => rfl⟩ ?_ ?_
  · simp [isAvailable]
  · simp only [List.mem_singleton, forall_eq]
    exact .scalar (by simp) (by simp)

/-- What stands in a node once it has its name and its type stood inside it
before, or it is made of a text. -/
theorem find?_applied_cases {entries : List (Text × Json)} {name : Option Text}
    {given : Option Json} {key : Text} {value : Json}
    (hgiven : givenType? language entries = .ok given)
    (hfound : Text.find? key (applied name given entries) = some value) :
    Json.Below value (.obj entries) ∨ (∃ text, value = .str text) ∨
      ∃ text, value = .obj [("name", .str text)] := by
  rw [find?_applied] at hfound
  split at hfound
  next h =>
    obtain ⟨text, rfl⟩ := Option.isSome_iff_exists.mp h.2
    exact .inr (.inl ⟨text, (Option.some.inj hfound).symm⟩)
  next =>
    split at hfound
    next h =>
      obtain ⟨type, rfl⟩ := Option.isSome_iff_exists.mp h.2
      obtain rfl : typeFor type = value := Option.some.inj hfound
      cases type with
      | str text => exact .inr (.inr ⟨text, rfl⟩)
      | _ =>
          exact .inl (below_of_givenType? hgiven)
    next => exact .inl (.single (Json.Child.value (Json.mem_of_find? hfound)))

/-- What remains inside a restricted value: it is settled and for the language. -/
structure Remains (language : Text) (left : Json) : Prop where
  settled : Settled language left
  proper : left.Proper
  available : isAvailable language left = .ok true

theorem remains_str (text : Text) : Remains language (.str text) where
  settled := .scalar (by simp) (by simp)
  proper := by simp [Json.Proper]
  available := rfl

theorem remains_nameOnly (name : Text) : Remains language (.obj [("name", .str name)]) where
  settled := settled_nameOnly name
  proper := by simp [Json.Proper, Json.ProperEntries]
  available := rfl

theorem settled_of_items {items : List Json}
    (hitems : ∀ item ∈ items, Remains language item) :
    Settled language (.arr items) ∧ (Json.arr items).Proper := by
  constructor
  · exact .arr (fun item hitem => (hitems item hitem).available)
      fun item hitem => (hitems item hitem).settled
  · rw [Json.Proper, Json.properItems_iff]
    exact fun item hitem => (hitems item hitem).proper

theorem settled_of_entries {entries : List (Text × Json)}
    (hnode : SettledNode language entries) (hkeys : (entries.map Prod.fst).Nodup)
    (hentries : ∀ entry ∈ entries, Remains language entry.2) :
    Settled language (.obj entries) ∧ (Json.obj entries).Proper := by
  constructor
  · exact .obj hnode (fun entry hentry => (hentries entry hentry).available)
      fun entry hentry => (hentries entry hentry).settled
  · rw [Json.Proper, Json.properEntries_iff]
    exact ⟨hkeys, fun entry hentry => (hentries entry hentry).proper⟩

/-- What a restricted node holds remains of something below it, or is its name or
type as it is given. -/
theorem remains_of_mem {entries kept : List (Text × Json)} {name : Option Text}
    {given : Option Json} (hgiven : givenType? language entries = .ok given)
    (hkeys : (kept.map Prod.fst).Nodup)
    (hfound : ∀ key, Text.find? key kept =
      (Text.find? key (applied name given entries)).bind (left? language))
    (hbelow : ∀ inner left, Json.Below inner (.obj entries) →
      left? language inner = some left → Remains language left)
    {entry : Text × Json} (hentry : entry ∈ kept) : Remains language entry.2 := by
  have hkept := hfound entry.1
  rw [Json.find?_of_mem hkeys hentry] at hkept
  obtain ⟨before, hbefore, hleft⟩ := Option.bind_eq_some_iff.mp hkept.symm
  rcases find?_applied_cases hgiven hbefore with hinside | ⟨text, rfl⟩ | ⟨text, rfl⟩
  · exact hbelow before entry.2 hinside hleft
  · rw [← Option.some.inj hleft]
    exact remains_str text
  · rw [← Option.some.inj hleft]
    exact remains_nameOnly text

/-- What restricting leaves of a value is settled, and for the language if the
value was. -/
theorem settled_restrictAt (hword : isEntryWord language = false) {value left : Json}
    {dropped : Nat} (hproper : value.Proper)
    (hrun : restrictAt language [] value = .ok (left, dropped)) :
    Settled language left ∧ left.Proper ∧
      (isAvailable language value = .ok true → isAvailable language left = .ok true) := by
  induction value using Json.wellFounded_below.induction generalizing left dropped with
  | _ value ih =>
  have hbelow : ∀ inner left, Json.Below inner value → left? language inner = some left →
      Remains language left := by
    intro inner left hinside hleft
    obtain ⟨havailable, _, hrun⟩ := left?_eq_some.mp hleft
    obtain ⟨hsettled, hproper, hkept⟩ := ih inner hinside (hproper.below hinside) hrun
    exact ⟨hsettled, hproper, hkept havailable⟩
  cases value with
  | arr items =>
      rw [restrictAt] at hrun
      obtain ⟨⟨kept, _⟩, hkept, hrun⟩ := exists_of_bind_ok hrun
      obtain ⟨rfl, -⟩ := Prod.ext_iff.mp (Except.ok.inj hrun)
      have hitems : ∀ item ∈ kept, Remains language item := by
        intro item hitem
        obtain ⟨before, hbefore, hleft⟩ := exists_of_mem_restrictItems hkept hitem
        exact hbelow before item (.single (.item hbefore)) hleft
      obtain ⟨hsettled, hproper⟩ := settled_of_items hitems
      exact ⟨hsettled, hproper, fun _ => rfl⟩
  | obj entries =>
      rw [Json.Proper] at hproper
      obtain ⟨name, given, kept, hname, hgiven, rfl, hkeys, hfound⟩ :=
        restrictAt_obj_ok hproper.1 hrun
      have hnode := settledNode_kept hword hproper.2 hname hgiven hfound
      have hentries : ∀ entry ∈ kept, Remains language entry.2 :=
        fun entry hentry => remains_of_mem hgiven hkeys hfound hbelow hentry
      have hlangs : Text.find? "langs" kept =
          (Text.find? "langs" entries).bind (left? language) := by
        rw [hfound, find?_applied_of_ne (by decide) (by decide)]
      obtain ⟨hsettled, hproper'⟩ := settled_of_entries hnode hkeys hentries
      exact ⟨hsettled, hproper', isAvailable_kept hproper.2 hlangs⟩
  | _ =>
      rw [restrictAt] at hrun
      · obtain ⟨rfl, -⟩ := Prod.ext_iff.mp (Except.ok.inj hrun)
        exact ⟨.scalar (by simp) (by simp), hproper, id⟩
      all_goals simp

theorem Settled.of_child {inner outer : Json} (hsettled : Settled language outer)
    (hchild : Json.Child inner outer) :
    Settled language inner ∧ isAvailable language inner = .ok true := by
  cases hchild with
  | item hmem =>
      cases hsettled with
      | scalar harr => exact absurd rfl (harr _)
      | arr havailable hsettled => exact ⟨hsettled _ hmem, havailable _ hmem⟩
  | value hmem =>
      cases hsettled with
      | scalar _ hobj => exact absurd rfl (hobj _)
      | obj _ havailable hsettled => exact ⟨hsettled _ hmem, havailable _ hmem⟩

theorem Settled.of_below {inner outer : Json} (hsettled : Settled language outer)
    (hbelow : Json.Below inner outer) :
    Settled language inner ∧ isAvailable language inner = .ok true := by
  induction hbelow using Relation.TransGen.head_induction_on with
  | single hchild => exact hsettled.of_child hchild
  | head hchild _ ih => exact ih.1.of_child hchild

/-- Restricting a description reaches a fixed point in one pass: nothing below
the root of what it leaves is to be dropped, and restricting that once more
succeeds, changes nothing and drops nothing. -/
theorem restrict_settles (language : Text) (hword : isEntryWord language = false) (tree : Json)
    (hproper : tree.Proper) (result : Json) (dropped : Nat)
    (hrun : restrict language tree = .ok (result, dropped)) :
    (∀ node, Json.Below node result → isAvailable language node = .ok true) ∧
      restrict language result = .ok (result, 0) := by
  have htree : ∀ tree, restrict language tree = restrictAt language [] tree := by
    simp [restrict, hword, restrictTree]
  rw [htree] at hrun
  obtain ⟨hsettled, hproper, -⟩ := settled_restrictAt hword hproper hrun
  refine ⟨fun node hbelow => (hsettled.of_below hbelow).2, ?_⟩
  rw [htree]
  exact restrictAt_of_settled hsettled hproper

/-- A page with a type of its own for a language. -/
def viewedPage (view : Json) : Json :=
  .obj [("name", .str "Page"), ("langs", .obj [("types", .obj [("java", view)])])]

/-- A view that is called differently for Java and has some parts. -/
def view (name : Text) (parts : List Json) : Json :=
  .obj [("name", .str name), ("langs", .obj [("aliases", .obj [("java", .str "Screen")])]),
    ("parts", .arr parts)]

theorem restrict_settles_viewedPage :
    let part : Json := .obj [("langs", .obj [("only", .arr [.str "js"])])]
    let page := viewedPage (view "View" [part])
    ∃ entries, restrict "java" page = .ok (.obj entries, 1) ∧
      Text.find? "type" entries = some (view "Screen" []) ∧
      (∀ node, Json.Below node (.obj entries) → isAvailable "java" node = .ok true) ∧
      restrict "java" (.obj entries) = .ok (.obj entries, 0) := by
  intro part page
  have hproper : page.Proper := by
    simp only [page, part, viewedPage, view, Json.Proper, Json.ProperItems, Json.ProperEntries]
    decide
  have hrun : restrict "java" page = .ok (.obj [("name", .str "Page"),
      ("langs", .obj [("types", .obj [("java", view "Screen" [])])]),
      ("type", view "Screen" [])], 1) := by
    rfl
  exact ⟨_, hrun, rfl, restrict_settles "java" rfl page hproper _ 1 hrun⟩

end Availability
end ApiBindings
