import ApiBindings.Settings
import ApiBindings.Proofs.Json.Reading
/-!
# Settings read from text

The types that replace others are kept as they were given.  Those of settings
that were read from text are therefore proper values, which is all that the
theory of resolving asks of settings.
-/

namespace ApiBindings

theorem Text.ofChars_of_chars? {text : Text} {chars : List Char}
    (hchars : text.chars? = some chars) : text = .ofChars chars := by
  induction text generalizing chars with
  | nil =>
      obtain rfl : [] = chars := by simpa [Text.chars?] using hchars
      rfl
  | cons code rest ih =>
      cases code with
      | surrogate offset => simp [Text.chars?] at hchars
      | char c =>
          obtain ⟨others, hothers, rfl⟩ := Option.map_eq_some_iff.mp hchars
          rw [ih hothers]
          rfl

theorem Text.eq_ofString_of_toString? {text : Text} {string : String}
    (hstring : text.toString? = some string) : text = .ofString string := by
  obtain ⟨chars, hchars, rfl⟩ := Option.map_eq_some_iff.mp hstring
  rw [Text.ofChars_of_chars? hchars, Text.ofString, String.toList_ofList]

theorem Json.Proper.get? {value found : Json} {key : Text} (hproper : value.Proper)
    (hfound : value.get? key = some found) : found.Proper := by
  cases value with
  | obj entries => exact hproper.2.of_mem (mem_of_find? hfound)
  | _ => simp [Json.get?] at hfound

namespace Override

theorem proper_of_ofJson {path : Text} {value : Json} {replaced : Override}
    (hproper : value.Proper) (hread : ofJson path value = .ok replaced) :
    replaced.target.Proper := by
  unfold ofJson at hread
  split at hread
  next source target _ htarget =>
    obtain rfl := Except.ok.inj hread
    exact hproper.get? htarget
  next => simp at hread

theorem proper_of_ofEntries {entries : List (Text × Json)} {table : List (Text × Override)}
    (hproper : Json.ProperEntries entries) (hread : ofEntries entries = .ok table) :
    ∀ entry ∈ table, entry.2.target.Proper := by
  induction entries generalizing table with
  | nil =>
      obtain rfl : [] = table := by simpa [ofEntries] using hread
      simp
  | cons entry rest ih =>
      obtain ⟨path, value⟩ := entry
      obtain ⟨hvalue, hrest⟩ := hproper
      unfold ofEntries at hread
      cases hfirst : ofJson path value with
      | error failure => simp [hfirst, bind, Except.bind] at hread
      | ok first =>
          cases hothers : ofEntries rest with
          | error failure => simp [hfirst, hothers, bind, Except.bind] at hread
          | ok others =>
              obtain rfl : (path, first) :: others = table := by
                simpa [hfirst, hothers, bind, Except.bind, pure, Except.pure] using hread
              exact List.forall_mem_cons.mpr ⟨proper_of_ofJson hvalue hfirst, ih hrest hothers⟩

end Override

namespace Settings

/-- The types that replace others are named by proper values. -/
def ProperTargets (settings : Settings) : Prop :=
  ∀ path replaced, settings.override? path = .ok (some replaced) → replaced.target.Proper

variable {settings after : Settings}

theorem ProperTargets.of_overrides (hsettings : settings.ProperTargets)
    (hoverrides : after.overrides = settings.overrides) : after.ProperTargets := by
  intro path replaced hreplaced
  refine hsettings path replaced ?_
  rwa [override?, ← hoverrides]

theorem properTargets_of_table (table : List (Text × Override))
    (htable : ∀ entry ∈ table, entry.2.target.Proper)
    (hoverrides : settings.overrides = some (.table table)) : settings.ProperTargets := by
  intro path replaced hreplaced
  have hfound : Text.find? path table = some replaced := by
    simpa [override?, hoverrides] using hreplaced
  obtain ⟨newer, older, hsplit, -⟩ := List.lookup_eq_some_iff.mp hfound
  exact htable (path, replaced) (by simp [hsplit])

/-- Nothing is replaced by a value that was not read as a table. -/
theorem properTargets_of_no_table
    (hoverrides : ∀ table, settings.overrides ≠ some (.table table)) :
    settings.ProperTargets := by
  intro path replaced hreplaced
  unfold override? at hreplaced
  split at hreplaced
  next table htable => exact absurd htable (hoverrides table)
  next => split at hreplaced <;> simp at hreplaced
  next => simp at hreplaced

theorem defaults_properTargets : defaults.ProperTargets :=
  properTargets_of_table [] (by simp) rfl

theorem unchecked_properTargets (entries : List (Text × Json)) :
    (unchecked entries).ProperTargets := by
  cases hfound : Text.find? "type_overrides" entries with
  | none => exact properTargets_of_no_table (by simp [unchecked, hfound])
  | some value =>
      by_cases hempty : value = .obj []
      · exact properTargets_of_table [] (by simp)
          (by simp [unchecked, hfound, hempty, uncheckedOverrides])
      · have hother : uncheckedOverrides value = .other value := by
          unfold uncheckedOverrides
          split
          next => exact absurd rfl hempty
          next => rfl
        exact properTargets_of_no_table (by simp [unchecked, hfound, hother])

/-- Only replaced types and a replacement of all settings bear on the targets. -/
theorem set_ok {key : Text} {value : Json} (hset : settings.set key value = .ok after) :
    after.overrides = settings.overrides ∨
      (∃ entries table, value = .obj entries ∧ Override.ofEntries entries = .ok table ∧
        after.overrides = some (.table table)) ∨
      (∀ table, after.overrides ≠ some (.table table)) ∨
      ∃ entries, after = unchecked entries := by
  unfold set at hset
  dsimp only at hset
  split at hset
  -- Most keys leave the replaced types as they are.
  any_goals
    obtain rfl := Except.ok.inj hset
    exact .inl rfl
  next =>
    split at hset
    next entries =>
      cases htable : Override.ofEntries entries with
      | error failure => simp [htable, bind, Except.bind] at hset
      | ok table =>
          rw [htable] at hset
          obtain rfl := Except.ok.inj hset
          exact .inr (.inl ⟨entries, table, rfl, htable, rfl⟩)
    next =>
      obtain rfl := Except.ok.inj hset
      refine .inr (.inr (.inl fun table => ?_))
      cases settings.overrides <;> simp
  next =>
    split at hset
    next entries =>
      cases houtput : Output.ofEntries entries with
      | error failure => simp [houtput, bind, Except.bind] at hset
      | ok output =>
          rw [houtput] at hset
          obtain rfl := Except.ok.inj hset
          exact .inl rfl
    next =>
      obtain rfl := Except.ok.inj hset
      exact .inl rfl
  next =>
    split at hset
    next entries => exact .inr (.inr (.inr ⟨entries, (Except.ok.inj hset).symm⟩))
    next => simp at hset
  next => simp at hset
  next => simp at hset

theorem set_properTargets {key : Text} {value : Json} (hsettings : settings.ProperTargets)
    (hvalue : value.Proper) (hset : settings.set key value = .ok after) :
    after.ProperTargets := by
  obtain hsame | ⟨entries, table, rfl, htable, hoverrides⟩ | hnone | ⟨entries, rfl⟩ :=
    set_ok hset
  · exact hsettings.of_overrides hsame
  · have hproper := Override.proper_of_ofEntries hvalue.2 htable
    exact properTargets_of_table table hproper hoverrides
  · exact properTargets_of_no_table hnone
  · exact unchecked_properTargets entries

theorem setAll_properTargets {entries : List (Text × Json)}
    (hsettings : settings.ProperTargets) (hentries : Json.ProperEntries entries)
    (hset : settings.setAll entries = .ok after) : after.ProperTargets := by
  induction entries generalizing settings with
  | nil =>
      obtain rfl : settings = after := by simpa [setAll] using hset
      exact hsettings
  | cons entry rest ih =>
      obtain ⟨key, value⟩ := entry
      obtain ⟨hvalue, hrest⟩ := hentries
      unfold setAll at hset
      cases hfirst : settings.set key value with
      | error failure => simp [hfirst, bind, Except.bind] at hset
      | ok first =>
          rw [hfirst] at hset
          exact ih (set_properTargets hsettings hvalue hfirst) hrest hset

theorem ofJson_properTargets {config : Json} (hconfig : config.Proper)
    (hread : ofJson config = .ok settings) : settings.ProperTargets := by
  cases config with
  | obj entries => exact setAll_properTargets defaults_properTargets hconfig.2 hread
  | _ => simp [ofJson] at hread

theorem ofText_properTargets {text : String} {config : Json}
    (htext : Json.ofText text = .ok config) (hread : ofJson config = .ok settings) :
    settings.ProperTargets :=
  ofJson_properTargets (Json.proper_of_ofText htext) hread

/-! ## The mode for existing files -/

/-- The mode that an object gives for existing files. -/
def givenMode? (config : Json) : Option Json :=
  (config.get? "output").bind (Json.get? "mode")

theorem output_of_set {key : Text} {value atomic : Json} {mode : OutputMode}
    (hset : settings.set key value = .ok after)
    (houtput : after.output = some (.options mode atomic)) :
    settings.output = some (.options mode atomic) ∨
      key = "output" ∧ ∃ entries, value = .obj entries ∧
        Output.ofEntries entries = .ok (.options mode atomic) := by
  unfold set at hset
  dsimp only at hset
  split at hset
  -- Most keys leave the output options as they are.
  any_goals
    obtain rfl := Except.ok.inj hset
    exact .inl houtput
  next =>
    split at hset
    next entries =>
      obtain ⟨table, -, hset⟩ := exists_of_bind_ok hset
      obtain rfl := Except.ok.inj hset
      exact .inl houtput
    next =>
      obtain rfl := Except.ok.inj hset
      exact .inl houtput
  next hkey =>
    split at hset
    next entries =>
      obtain ⟨output, hentries, hset⟩ := exists_of_bind_ok hset
      obtain rfl := Except.ok.inj hset
      obtain rfl := Option.some.inj houtput
      exact .inr ⟨Text.eq_ofString_of_toString? hkey, entries, rfl, hentries⟩
    next =>
      obtain rfl := Except.ok.inj hset
      cases hold : settings.output <;> simp [hold] at houtput
  next =>
    split at hset
    next entries =>
      obtain rfl := Except.ok.inj hset
      cases hfound : Text.find? "output" entries <;> simp [unchecked, hfound] at houtput
    next => simp at hset
  next => simp at hset
  next => simp at hset

theorem output_of_setAll {entries : List (Text × Json)} {atomic : Json} {mode : OutputMode}
    (hset : settings.setAll entries = .ok after)
    (houtput : after.output = some (.options mode atomic)) :
    settings.output = some (.options mode atomic) ∨
      ∃ options, ((("output" : Text), Json.obj options) ∈ entries) ∧
        Output.ofEntries options = .ok (.options mode atomic) := by
  induction entries generalizing settings with
  | nil =>
      obtain rfl : settings = after := by simpa [setAll] using hset
      exact .inl houtput
  | cons entry rest ih =>
      obtain ⟨key, value⟩ := entry
      obtain ⟨first, hfirst, hrest⟩ := exists_of_bind_ok hset
      obtain hkept | ⟨options, hmem, hoptions⟩ := ih hrest
      · obtain hkept | ⟨rfl, options, rfl, hoptions⟩ := output_of_set hfirst hkept
        · exact .inl hkept
        · exact .inr ⟨options, List.mem_cons_self, hoptions⟩
      · exact .inr ⟨options, List.mem_cons_of_mem _ hmem, hoptions⟩

/-- Existing files are protected unless the settings give another mode. -/
theorem mode_of_ofJson {config atomic : Json} {mode : OutputMode} (hconfig : config.Proper)
    (hread : ofJson config = .ok settings)
    (houtput : settings.output = some (.options mode atomic)) :
    mode = .errorIfExists ∨ ∃ given, givenMode? config = some given ∧ OutputMode.ofJson given = .ok mode := by
  cases config with
  | obj entries =>
      obtain hdefault | ⟨options, hmem, hoptions⟩ := output_of_setAll hread houtput
      · obtain ⟨rfl, -⟩ : OutputMode.errorIfExists = mode ∧ Json.bool true = atomic := by
          simpa [defaults] using hdefault
        exact .inl rfl
      · have hfound : Text.find? "output" entries = some (.obj options) :=
          Json.find?_of_mem hconfig.1 hmem
        rw [Output.ofEntries] at hoptions
        cases hgiven : Text.find? "mode" options with
        | none =>
            obtain ⟨rfl, -⟩ : OutputMode.errorIfExists = mode ∧ _ = atomic := by
              simpa [hgiven, bind, Except.bind, pure, Except.pure] using hoptions
            exact .inl rfl
        | some given =>
            rw [hgiven] at hoptions
            obtain ⟨read, hmode, hdone⟩ := exists_of_bind_ok hoptions
            obtain ⟨rfl, -⟩ : read = mode ∧ _ = atomic := by
              simpa [pure, Except.pure] using hdone
            exact .inr ⟨given, by simp [givenMode?, Json.get?, hfound, hgiven], hmode⟩
  | _ => simp [ofJson] at hread

end Settings
end ApiBindings
