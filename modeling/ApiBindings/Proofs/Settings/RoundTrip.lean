import ApiBindings.Proofs.Settings
/-!
# Settings given again

Settings can be given as an object if their tables and output options were read
and not only kept.  Reading that object gives the same settings, whatever they
were read from; so an object that was once read and given again stays as it is.
-/

namespace ApiBindings

namespace Override

theorem ofJson_toJson (path : Text) (replaced : Override) :
    ofJson path replaced.toJson = .ok replaced := rfl

theorem ofEntries_toJson (table : List (Text × Override)) :
    ofEntries (table.map fun (path, replaced) => (path, replaced.toJson)) = .ok table := by
  induction table with
  | nil => rfl
  | cons entry rest ih =>
      obtain ⟨path, replaced⟩ := entry
      rw [List.map_cons, ofEntries, ofJson_toJson, ih]
      rfl

end Override

theorem OutputMode.ofJson_of_toJson {mode : OutputMode} {given : Json}
    (hgiven : mode.toJson = .ok given) : ofJson given = .ok mode := by
  cases mode with
  | errorIfExists =>
      obtain rfl := Except.ok.inj hgiven
      rfl
  | force =>
      obtain rfl := Except.ok.inj hgiven
      rfl
  | other value => simp [toJson] at hgiven

theorem Output.exists_of_toJson {output : Output} {given : Json}
    (hgiven : output.toJson = .ok given) :
    ∃ entries, given = .obj entries ∧ ofEntries entries = .ok output := by
  cases output with
  | other value => simp [toJson] at hgiven
  | options mode atomic =>
      obtain ⟨name, hname, hgiven⟩ := exists_of_bind_ok hgiven
      obtain rfl := Except.ok.inj hgiven
      refine ⟨[("mode", name), ("atomic_write", atomic)], rfl, ?_⟩
      change (OutputMode.ofJson name >>= fun mode => pure (options mode atomic)) = _
      rw [OutputMode.ofJson_of_toJson hname]
      rfl

namespace Settings

variable {settings after : Settings} {key : Text} {value given : Json}
  {entries rest : List (Text × Json)}

theorem eq_some_of_required {α : Type} {setting : Option α} {found : α}
    (hrequired : required setting = .ok found) : setting = some found := by
  cases setting with
  | none => simp [required] at hrequired
  | some given => rw [Except.ok.inj hrequired]

/-- Settings that can be given as an object miss nothing and hold nothing unread. -/
theorem toJson_ok (hgiven : settings.toJson = .ok given) :
    ∃ names table signatures bases closeables output options,
      settings = { settings with
        customTypeNames := some names
        overrides := some (.table table)
        customSignatures := some signatures
        allowedBaseInterfaces := some bases
        autoCloseableInterfaces := some closeables
        output := some output
        isExportable := true } ∧
      output.toJson = .ok options ∧
      given = .obj
        [("custom_type_names", names),
         ("type_overrides", .obj (table.map fun (path, replaced) => (path, replaced.toJson))),
         ("custom_signatures", signatures),
         ("allowed_base_interfaces", bases),
         ("auto_closeable_interfaces", closeables),
         ("java_package", settings.javaPackage),
         ("add_generation_comment", settings.addGenerationComment),
         ("license_header", settings.licenseHeader),
         ("output", options)] := by
  unfold toJson at hgiven
  cases hexportable : settings.isExportable with
  | false => simp [hexportable, throw, throwThe, MonadExceptOf.throw, bind, Except.bind] at hgiven
  | true =>
      simp only [hexportable, Bool.not_true, Bool.false_eq_true, if_false] at hgiven
      obtain ⟨kept, hoverrides, hgiven⟩ := exists_of_bind_ok hgiven
      cases kept with
      | other value => simp [bind, Except.bind] at hgiven
      | table table =>
          obtain ⟨_, htable, hgiven⟩ := exists_of_bind_ok hgiven
          obtain rfl := Except.ok.inj htable
          obtain ⟨output, houtput, hgiven⟩ := exists_of_bind_ok hgiven
          obtain ⟨options, hoptions, hgiven⟩ := exists_of_bind_ok hgiven
          obtain ⟨names, hnames, hgiven⟩ := exists_of_bind_ok hgiven
          obtain ⟨signatures, hsignatures, hgiven⟩ := exists_of_bind_ok hgiven
          obtain ⟨bases, hbases, hgiven⟩ := exists_of_bind_ok hgiven
          obtain ⟨closeables, hcloseables, hgiven⟩ := exists_of_bind_ok hgiven
          refine ⟨names, table, signatures, bases, closeables, output, options, ?_, hoptions,
            (Except.ok.inj hgiven).symm⟩
          rw [← eq_some_of_required hoverrides, ← eq_some_of_required houtput,
            ← eq_some_of_required hnames, ← eq_some_of_required hsignatures,
            ← eq_some_of_required hbases, ← eq_some_of_required hcloseables, ← hexportable]

theorem setAll_cons_of_set (hset : settings.set key value = .ok after) :
    settings.setAll ((key, value) :: rest) = after.setAll rest := by
  rw [setAll, hset]
  rfl

theorem set_overrides {table : List (Text × Override)}
    (htable : Override.ofEntries entries = .ok table) :
    settings.set "type_overrides" (.obj entries) =
      .ok { settings with overrides := some (.table table) } := by
  change (Override.ofEntries entries >>= fun table =>
    pure { settings with overrides := some (.table table) }) = _
  rw [htable]
  rfl

theorem set_output {output : Output} (houtput : Output.ofEntries entries = .ok output) :
    settings.set "output" (.obj entries) = .ok { settings with output := some output } := by
  change (Output.ofEntries entries >>= fun output =>
    pure { settings with output := some output }) = _
  rw [houtput]
  rfl

theorem ofJson_of_toJson (hgiven : settings.toJson = .ok given) : ofJson given = .ok settings := by
  obtain ⟨names, table, signatures, bases, closeables, output, options, hsettings, hoptions, rfl⟩ :=
    toJson_ok hgiven
  obtain ⟨entries, rfl, houtput⟩ := Output.exists_of_toJson hoptions
  rw [ofJson, setAll_cons_of_set rfl,
    setAll_cons_of_set (set_overrides (Override.ofEntries_toJson table)),
    setAll_cons_of_set rfl, setAll_cons_of_set rfl, setAll_cons_of_set rfl,
    setAll_cons_of_set rfl, setAll_cons_of_set rfl, setAll_cons_of_set rfl,
    setAll_cons_of_set (set_output houtput), hsettings]
  rfl

/-- The object that gives the settings which an object gives. -/
def restated (config : Json) : Except Failure Json := do
  (← ofJson config).toJson

/-- Settings that were read and given again are read as what they were, so giving them again once
more changes nothing. -/
theorem restated_settles {config : Json} (hgiven : restated config = .ok given) :
    ∃ settings, ofJson config = .ok settings ∧ settings.toJson = .ok given ∧
      ofJson given = .ok settings ∧ restated given = .ok given := by
  obtain ⟨settings, hread, hwritten⟩ := exists_of_bind_ok hgiven
  have hagain : ofJson given = .ok settings := ofJson_of_toJson hwritten
  refine ⟨settings, hread, hwritten, hagain, ?_⟩
  rw [restated, hagain]
  exact hwritten

/-- An object that replaces the type at a path without saying what kind it is, allows existing
files to be replaced and gives something that is no setting. -/
def replacingJson : Json :=
  .obj
    [("output", .obj [("mode", .str "force")]),
     ("type_overrides", .obj [("Page.size", .obj [("to", .str "Size"), ("from", .str "Object")])]),
     ("indent", .int 2)]

theorem restated_settles_replacing :
    ∃ given, restated replacingJson = .ok given ∧
      ∃ settings, ofJson replacingJson = .ok settings ∧ settings.toJson = .ok given ∧
        ofJson given = .ok settings ∧ restated given = .ok given :=
  ⟨_, rfl, restated_settles rfl⟩

end Settings
end ApiBindings
