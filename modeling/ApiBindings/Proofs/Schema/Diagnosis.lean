import ApiBindings.Proofs.Schema.Location
import ApiBindings.Proofs.Schema.Settled
/-!
# Restricting and reading explain their failures

A description can be any value, so each step that looks into it has to find out
first what it is.  Restricting does so before every use of `langs`, and reading
does so before every use of a node, with one exception: the members of an
interface are taken for a collection.  Restricting neither mends nor makes such
members, so those at fault stand in the description as it was given.
-/

namespace ApiBindings

def Failure.IsDiagnosed (failure : Failure) : Prop :=
  ∃ diagnosis, failure = .diagnosed diagnosis

theorem Cause.isDiagnosed_atPath (cause : Cause) (path : Text) :
    (cause.atPath path).IsDiagnosed :=
  ⟨_, rfl⟩

/-- If there is no result, a diagnosis says why. -/
def Diagnosed {α : Type} (result : Except Failure α) : Prop :=
  ∀ failure, result = .error failure → failure.IsDiagnosed

namespace Diagnosed

variable {α β : Type}

theorem ok (a : α) : Diagnosed (.ok a) := by
  intro failure hfailure
  cases hfailure

theorem error {failure : Failure} (hfailure : failure.IsDiagnosed) :
    Diagnosed (.error failure : Except Failure α) := by
  intro other hother
  cases hother
  exact hfailure

theorem bind {first : Except Failure α} {next : α → Except Failure β} (hfirst : Diagnosed first)
    (hnext : ∀ a, first = .ok a → Diagnosed (next a)) : Diagnosed (first >>= next) := by
  cases hrun : first with
  | error failure => exact error (hfirst failure hrun)
  | ok a => exact hnext a hrun

end Diagnosed

namespace Availability

variable {language : Text}

theorem isDiagnosed_failure (cause : Cause) (entries : List (Text × Json)) :
    (failure cause entries).IsDiagnosed :=
  ⟨_, rfl⟩

theorem diagnosed_isAvailable (value : Json) : Diagnosed (isAvailable language value) := by
  unfold isAvailable
  split
  next =>
    split
    next => exact .ok _
    next => exact .ok _
    next => exact .error (isDiagnosed_failure _ _)
  next => exact .ok _

theorem diagnosed_alias? (entries : List (Text × Json)) : Diagnosed (alias? language entries) := by
  unfold alias?
  split
  next => exact .ok _
  next =>
    split
    next => exact .ok _
    next => exact .ok _
    next =>
      split
      next => exact .error (isDiagnosed_failure _ _)
      next => exact .ok _
    next => exact .error (isDiagnosed_failure _ _)
  next => exact .error (isDiagnosed_failure _ _)

theorem diagnosed_givenType? (entries : List (Text × Json)) :
    Diagnosed (givenType? language entries) := by
  unfold givenType?
  split
  next => exact .ok _
  next =>
    split
    next => exact .ok _
    next => exact .ok _
    next => exact .ok _
    next =>
      split
      next => exact .ok _
      next => exact .error (isDiagnosed_failure _ _)
  next => exact .error (isDiagnosed_failure _ _)

theorem diagnosed_plainOutcome {value : Json}
    (hvalue : Diagnosed (restrictAt language [] value)) :
    Diagnosed (plainOutcome language value) := by
  apply (diagnosed_isAvailable value).bind
  intro available _
  split
  next => exact hvalue.bind fun _ _ => .ok _
  next => exact .ok _

theorem diagnosed_restrictItems {items : List Json}
    (hitems : ∀ item ∈ items, Diagnosed (restrictAt language [] item)) :
    Diagnosed (restrictItems language items) := by
  induction items with
  | nil => exact .ok _
  | cons item rest ih =>
      rcases List.forall_mem_cons.mp hitems with ⟨hitem, hrest⟩
      have hothers := ih hrest
      rw [restrictItems]
      apply (diagnosed_isAvailable item).bind
      intro available _
      split
      next => exact hitem.bind fun _ _ => hothers.bind fun _ _ => .ok _
      next => exact hothers.bind fun _ _ => .ok _

theorem diagnosed_restrictEntries {name type : Option Outcome} {entries : List (Text × Json)}
    (hentries : ∀ entry ∈ entries, Diagnosed (entryOutcome language name type entry.1 entry.2)) :
    Diagnosed (restrictEntries language name type entries) := by
  induction entries with
  | nil => exact .ok _
  | cons entry rest ih =>
      rcases List.forall_mem_cons.mp hentries with ⟨hentry, hrest⟩
      rw [restrictEntries_cons]
      exact hentry.bind fun _ _ => (ih hrest).bind fun _ _ => .ok _

theorem diagnosed_entryOutcome {name type : Option Outcome} {key : Text} {value : Json}
    (hname : ∀ outcome ∈ name, Diagnosed outcome) (htype : ∀ outcome ∈ type, Diagnosed outcome)
    (hplain : Diagnosed (plainOutcome language value)) :
    Diagnosed (entryOutcome language name type key value) := by
  have hgetD : ∀ settled : Option Outcome, (∀ outcome ∈ settled, Diagnosed outcome) →
      Diagnosed (settled.getD (plainOutcome language value)) := by
    intro settled hsettled
    cases settled with
    | none => exact hplain
    | some outcome => exact hsettled outcome rfl
  unfold entryOutcome
  apply hgetD
  split
  next => exact hname
  next =>
    split
    next => exact htype
    next => simp

/-- The type that a node is given stands inside the node, so that it is restricted
by the same induction as the entries. -/
theorem diagnosed_givenOutcome {entries : List (Text × Json)} {given : Json}
    (hgiven : Diagnosed (restrictAt language [] given)) :
    Diagnosed (givenOutcome language entries given) := by
  unfold givenOutcome
  split
  next => exact .ok _
  next => exact (diagnosed_plainOutcome hgiven).bind fun _ _ => .ok _

theorem diagnosed_restrictAt (value : Json) : Diagnosed (restrictAt language [] value) := by
  induction value using Json.wellFounded_below.induction with
  | _ value ih =>
  cases value with
  | arr items =>
      have hitems := diagnosed_restrictItems fun item hitem => ih item (.single (.item hitem))
      rw [restrictAt]
      exact hitems.bind fun _ _ => .ok _
  | obj entries =>
      rw [restrictAt_obj]
      apply (diagnosed_alias? entries).bind
      intro name _
      apply (diagnosed_givenType? _).bind
      intro given? hrenamed
      have hgiven : givenType? language entries = .ok given? := by
        cases name with
        | none => exact hrenamed
        | some name => exact givenType?_setName.mp hrenamed
      have hname : ∀ outcome ∈ name.map aliasOutcome, Diagnosed outcome := by
        intro outcome houtcome
        rcases Option.map_eq_some_iff.mp houtcome with ⟨text, -, heq⟩
        subst heq
        exact .ok _
      have htype : ∀ outcome ∈ given?.map (givenOutcome language entries), Diagnosed outcome := by
        intro outcome houtcome
        rcases Option.map_eq_some_iff.mp houtcome with ⟨given, hsome, heq⟩
        subst hsome heq
        exact diagnosed_givenOutcome (ih given (below_of_givenType? hgiven))
      have hplain : ∀ entry ∈ withPlaces (name.map aliasOutcome)
          (given?.map (givenOutcome language entries)) entries,
          Diagnosed (plainOutcome language entry.2) := by
        intro entry hentry
        apply diagnosed_plainOutcome
        rcases mem_withPlaces hentry with hmem | hnull
        · exact ih entry.2 (.single (.value hmem))
        · rw [hnull]
          exact .ok _
      have hentries := diagnosed_restrictEntries fun entry hentry =>
        diagnosed_entryOutcome hname htype (hplain entry hentry)
      exact hentries.bind fun _ _ => .ok _
  | _ =>
      rw [restrictAt]
      · exact .ok _
      all_goals simp

/-! ## Members that are not a collection -/

/-- Apart from the name and the type, an entry that is left was left of one of
the same key. -/
theorem exists_of_mem_restrictEntries {name type : Option Outcome}
    {entries kept : List (Text × Json)} {dropped : Nat} {key : Text} {left : Json}
    (hname : key ≠ "name") (htype : key ≠ "type")
    (hrun : restrictEntries language name type entries = .ok (kept, dropped))
    (hmem : (key, left) ∈ kept) :
    ∃ before, (key, before) ∈ entries ∧ left? language before = some left := by
  induction entries generalizing kept dropped with
  | nil =>
      cases hrun
      simp at hmem
  | cons entry rest ih =>
      rcases restrictEntries_cons_ok hrun with
        ⟨value?, others, _, _, hentry, hothers, hkept, -⟩
      subst hkept
      rcases List.mem_append.mp hmem with hfirst | hrest
      · rcases entry with ⟨k, value⟩
        cases value? with
        | none => simp at hfirst
        | some result =>
            have hsame : key = k ∧ left = result := by simpa using hfirst
            rcases hsame with ⟨hkey, hleft⟩
            subst hkey hleft
            rw [entryOutcome, if_neg hname, if_neg htype, Option.getD_none] at hentry
            exact ⟨value, List.mem_cons_self, by rw [left?, hentry]; rfl⟩
      · rcases ih hothers hrest with ⟨before, hbefore, hleft⟩
        exact ⟨before, List.mem_cons_of_mem _ hbefore, hleft⟩

theorem mem_of_mem_withPlaces {name type : Option Outcome} {entries : List (Text × Json)}
    {key : Text} {value : Json} (hname : key ≠ "name") (htype : key ≠ "type")
    (hmem : (key, value) ∈ withPlaces name type entries) : (key, value) ∈ entries := by
  have hplace : ∀ {other : Text} {settled : Option Outcome}, key ≠ other →
      (key, value) ∉ placeFor other settled entries := by
    intro other settled hother
    unfold placeFor
    split <;> simp [hother]
  simpa [withPlaces, hplace hname, hplace htype] using hmem

end Availability

/-- A value without parts: null, a truth value or a number. -/
def Json.IsPartless : Json → Prop
  | .null | .bool _ | .int _ | .float _ => True
  | _ => False

namespace Schema

/-- Some interface of a description has members that are no collection of any kind. -/
def HasPartlessMembers (schema : Json) : Prop :=
  ∃ items entries value, schema = .arr items ∧ Json.obj entries ∈ items ∧
    (("members" : Text), value) ∈ entries ∧ Json.IsPartless value

theorem isPartless_of_memberValues {value : Json} {failure : Failure}
    (hvalue : memberValues value = .error failure) : value.IsPartless := by
  cases value <;> simp_all [memberValues, Json.IsPartless]

/-- Reading explains its failures, unless the members of an interface are not a
collection. -/
theorem read_error {schema : Json} {failure : Failure} (hread : read schema = .error failure) :
    failure.IsDiagnosed ∨ failure = .wrongKind ∧ HasPartlessMembers schema := by
  have hreads := reads_read schema
  rw [hread] at hreads
  cases hreads with
  | error hreported =>
      cases hreported with
      | diagnosed _ _ => exact .inl ⟨_, rfl⟩
      | wrongKind hplace hvalue =>
          rcases hplace with ⟨names, hmembers, -⟩
          cases hmembers with
          | members hinterface hname hfound =>
              cases hinterface with
              | interface hlist hitem =>
                  cases hlist
                  exact .inr ⟨rfl, _, _, _, rfl, hitem, Json.mem_of_find? hfound,
                    isPartless_of_memberValues hvalue⟩

end Schema

namespace Availability

variable {language : Text}

theorem eq_of_left?_partless {value left : Json} (hleft : left? language value = some left)
    (hpartless : left.IsPartless) : value = left := by
  rcases left?_cases hleft with ⟨-, kept, hobj⟩ | ⟨_, kept, _, -, harr, -⟩ | ⟨heq, -, -⟩
  · subst hobj
    exact hpartless.elim
  · subst harr
    exact hpartless.elim
  · exact heq.symm

/-- Restricting makes no members that are not a collection. -/
theorem hasPartlessMembers_of_restrictAt {schema restricted : Json} {dropped : Nat}
    (hrun : restrictAt language [] schema = .ok (restricted, dropped))
    (hpartless : Schema.HasPartlessMembers restricted) : Schema.HasPartlessMembers schema := by
  rcases hpartless with ⟨kept, keptEntries, value, harr, hitem, hvalue, hpartless⟩
  subst harr
  cases schema with
  | arr items =>
      rw [restrictAt] at hrun
      rcases exists_of_bind_ok hrun with ⟨⟨left, _⟩, hitems, hdone⟩
      have hleft : left = kept := Json.arr.inj (Prod.ext_iff.mp (Except.ok.inj hdone)).1
      subst hleft
      rcases exists_of_mem_restrictItems hitems hitem with ⟨item, hmem, hitem⟩
      rcases left?_cases hitem with
        ⟨⟨entries, hobj⟩, -⟩ | ⟨_, _, _, -, hother, -⟩ | ⟨hsame, -, hother⟩
      · subst hobj
        rcases left?_eq_some.mp hitem with ⟨-, _, hentries⟩
        rw [restrictAt_obj] at hentries
        rcases exists_of_bind_ok hentries with ⟨name, -, hentries⟩
        rcases exists_of_bind_ok hentries with ⟨given, -, hentries⟩
        rcases exists_of_bind_ok hentries with ⟨⟨all, _⟩, hall, hdone⟩
        have hsame : all = keptEntries := Json.obj.inj (Prod.ext_iff.mp (Except.ok.inj hdone)).1
        subst hsame
        have hname : ("members" : Text) ≠ "name" := by decide
        have htype : ("members" : Text) ≠ "type" := by decide
        rcases exists_of_mem_restrictEntries hname htype hall hvalue with ⟨before, hbefore, hleft⟩
        have heq := eq_of_left?_partless hleft hpartless
        subst heq
        exact ⟨items, entries, before, rfl, hmem, mem_of_mem_withPlaces hname htype hbefore,
          hpartless⟩
      · cases hother
      · exact absurd hsame.symm (hother keptEntries)
  | obj entries =>
      rw [restrictAt_obj] at hrun
      rcases exists_of_bind_ok hrun with ⟨name, -, hrun⟩
      rcases exists_of_bind_ok hrun with ⟨given, -, hrun⟩
      rcases exists_of_bind_ok hrun with ⟨_, -, hdone⟩
      cases hdone
  | _ =>
      rw [restrictAt] at hrun
      · cases hrun
      all_goals simp

end Availability
end ApiBindings
