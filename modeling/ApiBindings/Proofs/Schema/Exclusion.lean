import ApiBindings.Generation
import ApiBindings.Proofs.Schema.Likeness
/-!
# Items for other languages

What an item of a list holds is never looked at once it is known to be for other
languages.  So such an item may be replaced by any other one, malformed or not.
-/

namespace ApiBindings

variable {language : Text}

namespace Availability

theorem Leeway.relates_excluded (key : Text) : Leeway.Relates .excluded key :=
  fun hleeway => Leeway.noConfusion hleeway

/-- Descriptions that differ in excluded items are restricted to the same. -/
theorem restrict_excluded (hword : isEntryWord language = false) {schema schema' : Json}
    (hschema : Alike .excluded language schema schema') :
    Likewise (fun _ _ => True) Eq (restrict language schema) (restrict language schema') := by
  have htree : ∀ tree, restrict language tree = restrictAt language [] tree := by
    simp [restrict, hword, restrictTree]
  have hrun : RestrictAlike .excluded language schema schema' :=
    hschema.restrict (Leeway.relates_excluded language)
  rw [htree, htree]
  unfold RestrictAlike at hrun
  generalize restrictAt language [] schema = run at hrun ⊢
  generalize restrictAt language [] schema' = run' at hrun ⊢
  cases hrun with
  | error => exact .error trivial
  | @ok result result' hends =>
      have hsame : result.1 = result'.1 := Alike.eq _ _ hends.1
      exact .ok (Prod.ext hsame hends.2)

end Availability

theorem Likewise.ok_iff {α : Type} {fails : Failure → Failure → Prop} {x y : Except Failure α}
    (hrun : Likewise fails Eq x y) (a : α) : x = .ok a ↔ y = .ok a := by
  cases hrun with
  | ok hends => rw [hends]
  | error => simp

namespace Generation

/-- Items of lists that are for other languages have no part in the surface: if
some of them are replaced by others, whatever these hold, then restricting the
description and deriving its surface succeed as before, with equal results and
equally many nodes dropped. -/
theorem surface_excluded (language : Text)
    (hword : Availability.isEntryWord language = false) (schema schema' : Json)
    (hschema : Availability.Alike .excluded language schema schema') :
    (∀ result, Availability.restrict language schema = .ok result ↔
      Availability.restrict language schema' = .ok result) ∧
    ∀ settings commandLine surface,
      Generation.surface settings language commandLine schema = .ok surface ↔
        Generation.surface settings language commandLine schema' = .ok surface := by
  have hrun := Availability.restrict_excluded hword hschema
  have hsame : ∀ {α : Type} (x : Except Failure α), Likewise (fun _ _ => True) Eq x x :=
    .refl (fun _ => trivial) fun _ => rfl
  have hsurface : ∀ settings commandLine, Likewise (fun _ _ => True) Eq
      (Generation.surface settings language commandLine schema)
      (Generation.surface settings language commandLine schema') := by
    intro settings commandLine
    apply Likewise.bind (hsame (checkLanguage language))
    rintro _ _ rfl
    apply Likewise.bind hrun
    rintro result _ rfl
    exact hsame _
  exact ⟨hrun.ok_iff, fun settings commandLine => (hsurface settings commandLine).ok_iff⟩

/-- A page with these members, one of which may be for other languages. -/
def pageWith (members : List Json) : Json :=
  .arr [.obj [("name", .str "Page"), ("members", .arr members)]]

/-- A member that is for another language and is nothing that can be read. -/
def foreign (langs : List (Text × Json)) : Json :=
  .obj [("langs", .obj (("only", .arr [.str "js"]) :: langs))]

theorem surface_excluded_pageWith :
    let close : Json := .obj [("name", .str "close"), ("kind", .str "event")]
    let page := pageWith [foreign [], close]
    let page' := pageWith [foreign [("aliases", .int 0)], close]
    Availability.restrict "java" page' = .ok (pageWith [close], 1) ∧
      (∀ result, Availability.restrict "java" page = .ok result ↔
        Availability.restrict "java" page' = .ok result) ∧
      ∀ settings commandLine surface,
        Generation.surface settings "java" commandLine page = .ok surface ↔
          Generation.surface settings "java" commandLine page' = .ok surface := by
  intro close page page'
  have hmembers : Availability.AlikeItems .excluded "java" [foreign [], close]
      [foreign [("aliases", .int 0)], close] := .excluded rfl rfl rfl (.refl _)
  have hentries : Availability.AlikeEntries .excluded "java"
      [("name", .str "Page"), ("members", .arr [foreign [], close])]
      [("name", .str "Page"), ("members", .arr [foreign [("aliases", .int 0)], close])] :=
    .cons (.refl _) (fun h => nomatch h) (.cons (.arr hmembers) (fun h => nomatch h) .nil)
  exact ⟨rfl, surface_excluded "java" rfl page page' (.arr (.cons (.obj hentries) .nil))⟩

end Generation
end ApiBindings
