import Callsite.CommandLine.Session
import Callsite.FileTree
import Callsite.Proofs.ArgumentLayers
import Callsite.Proofs.FileNames

/-!
# Layers of settings

A value in a file stands in for the default of a setting, and a value on the command line for both
(`settingsOf_layered`). What is left to be wrong is wrong usage, but for an extension that is given
nothing (`settingsOf_nothing`), which only a platform that drops an attached divider lets through.
-/

namespace Callsite.CommandLine.Session

open Setting (Chosen Complete)

variable {σ : Type} [FileStore (StateM σ)]

/-- What the arguments come to in a state of the file store. -/
def settingsIn (limit : Nat) (a : Arguments) (s : σ) : Except Exit Settings :=
  ((settingsOf limit a : StateM σ (Except Exit Settings)).run s).1

/-- The members of the object in the file that the arguments name; none, if they name no file. -/
inductive Configured (limit : Nat) (a : Arguments) (s : σ) : List (Text × Json) → Prop
  | none (h : ∀ c path, a.config ≠ some (.value (c :: path))) : Configured limit a s []
  | file (hconfig : a.config = some (.value (c :: path))) (hname : FileName.Fits (c :: path))
      (hread : ((FileStore.read (c :: path) : StateM σ _).run s).1 = .ok content)
      (htext : Utf8.decode content = .ok text)
      (hobject : Json.read limit (Settings.plainNewlines text) = .ok (.object members)) :
    Configured limit a s members

variable {limit : Nat} {a : Arguments} {s : σ} {members : List (Text × Json)}

theorem conclude_ok {base : Except SettingsFault Settings} (h : base >>= a.override = .ok settings) :
    conclude a base = (Arguments.check settings).mapError .usage := by
  rw [conclude, h]

theorem conclude_usage {base : Except SettingsFault Settings} (h : base >>= a.override = .error fault)
    (hfault : fault.isUsageFault = true) : conclude a base = .error (.usage (.settings fault)) := by
  rw [conclude, h]
  exact congrArg Except.error (if_pos hfault)

theorem conclude_settings {base : Except SettingsFault Settings}
    (h : base >>= a.override = .error fault) (hfault : fault.isUsageFault = false) :
    conclude a base = .error (.settings fault) := by
  rw [conclude, h]
  exact congrArg Except.error (if_neg (Bool.eq_false_iff.mp hfault))

theorem settingsIn_none (h : ∀ c path, a.config ≠ some (.value (c :: path))) :
    settingsIn limit a s = conclude a (.ok {}) := by
  rw [settingsIn, settingsOf]
  split
  next c path hconfig => exact absurd hconfig (h c path)
  next => rfl

theorem settingsIn_ofFile (limit : Nat) (hconfig : a.config = some (.value (c :: path))) :
    settingsIn limit a s = conclude a ((Settings.ofFile limit (c :: path) : StateM σ _).run s).1 := by
  rw [settingsIn, settingsOf, hconfig]
  rfl

theorem settingsIn_file (limit : Nat) (hconfig : a.config = some (.value (c :: path)))
    (hname : FileName.Fits (c :: path))
    (hread : ((FileStore.read (c :: path) : StateM σ _).run s).1 = .ok content) :
    settingsIn limit a s = conclude a (Settings.ofContent limit (c :: path) content) := by
  rw [settingsIn_ofFile limit hconfig, Settings.ofFile, FileName.check_eq_ok.mpr hname]
  obtain ⟨s', hrun⟩ : ∃ s', (FileStore.read (c :: path) : StateM σ _).run s = (.ok content, s') :=
    ⟨_, Prod.ext hread rfl⟩
  simp only [StateT.run_bind, hrun]
  rfl

theorem settingsIn_configured (hfile : Configured limit a s members) :
    ∃ path, settingsIn limit a s = conclude a (Settings.ofObject path members) := by
  cases hfile with
  | none hnone =>
    refine ⟨[], ?_⟩
    rw [settingsIn_none hnone, Settings.ofObject_nil]
  | @file c path _ _ _ hconfig hname hread htext hobject =>
    refine ⟨c :: path, ?_⟩
    rw [settingsIn_file limit hconfig hname hread, Settings.ofContent, htext]
    simp only [hobject]

theorem exists_base (hfile : Configured limit a s members) (h : Setting.Readable members) :
    ∃ base, settingsIn limit a s = conclude a base ∧ Settings.Realizes (Setting.own members) base := by
  obtain ⟨path, hpath⟩ := settingsIn_configured hfile
  exact ⟨_, hpath, Settings.realizes_ofObject h path⟩

/-- The three ends that arguments can come to. -/
theorem settingsIn_cases (hfile : Configured limit a s members) (h : Setting.Readable members) :
    (∃ settings, settingsIn limit a s = .ok settings ∧
      (∀ f, settings.value f = f.normalize (a.layered members f)) ∧ a.ExtensionsGiven ∧
      Chosen (Setting.own members) ∧ Chosen (a.layered members) ∧ Complete (a.layered members)) ∨
    ((∃ fault, settingsIn limit a s = .error (.usage fault)) ∧
      ¬(Chosen (Setting.own members) ∧ Chosen (a.layered members) ∧ Complete (a.layered members))) ∨
    (settingsIn limit a s = .error (.settings (.extensionType "list")) ∧ ¬a.ExtensionsGiven) := by
  obtain ⟨base, hbase, hown⟩ := exists_base hfile h
  rw [hbase]
  cases hown with
  | fault hown hfault =>
    exact .inr (.inl ⟨⟨_, conclude_usage rfl hfault⟩, fun hneeded => hown hneeded.1⟩)
  | settings hown hfound =>
    rcases Arguments.override_cases hfound with
      ⟨hgiven, hchosen, settings, hok, hvalue⟩ | ⟨hchosen, fault, herror, hfault⟩ | ⟨hgiven, herror⟩
    · rw [conclude_ok hok]
      have hcomplete := Setting.complete_normalize hvalue
      rcases Arguments.check_cases settings with ⟨hall, hcheck⟩ | ⟨hall, fault, hcheck⟩
      · exact .inl ⟨settings, congrArg (Except.mapError Exit.usage) hcheck, hvalue, hgiven, hown,
          hchosen, hcomplete.mp hall⟩
      · exact .inr (.inl ⟨⟨fault, congrArg (Except.mapError Exit.usage) hcheck⟩,
          fun hneeded => hall (hcomplete.mpr hneeded.2.2)⟩)
    · exact .inr (.inl ⟨⟨_, conclude_usage herror hfault⟩, fun hneeded => hchosen hneeded.2.1⟩)
    · exact .inr (.inr ⟨conclude_settings herror rfl, hgiven⟩)

/-- Each setting that the arguments come to is the one on the command line, or else the one in the file,
or else the default, with the extensions normalized once; an application or a directory on the command
line leaves no other in the file. Arguments whose extensions are texts come to settings if all that is
needed is there, and to a fault of usage if not. An extension that is given nothing is a fault of its
own, which takes a platform that drops a divider. -/
theorem settingsOf_layered {given : List Text} {dropsDivider : Bool}
    (hgiven : Arguments.ofWords dropsDivider given = .ok a) (hfile : Configured limit a s members)
    (h : Setting.Readable members) :
    (∀ settings, settingsIn limit a s = .ok settings →
      (∀ f, settings.value f = f.normalize (a.layered members f)) ∧
      (a.application.any Given.isTruthy = true → settings.directory = .null) ∧
      (a.directory.any Given.isTruthy = true → settings.application = .null) ∧
      Complete (a.layered members) ∧ Chosen (a.layered members)) ∧
    (a.ExtensionsGiven → Chosen (Setting.own members) → Complete (a.layered members) →
      Chosen (a.layered members) → ∃ settings, settingsIn limit a s = .ok settings) ∧
    (a.ExtensionsGiven →
      ¬(Chosen (Setting.own members) ∧ Complete (a.layered members) ∧ Chosen (a.layered members)) →
      ∃ fault, settingsIn limit a s = .error (.usage fault)) ∧
    (¬a.ExtensionsGiven → (∃ fault, settingsIn limit a s = .error (.usage fault)) ∨
      settingsIn limit a s = .error (.settings (.extensionType "list"))) ∧
    (dropsDivider = false → a.ExtensionsGiven) := by
  have hone := Arguments.oneTarget_ofWords hgiven
  have htexts : dropsDivider = false → a.ExtensionsGiven := by
    rintro rfl
    exact Arguments.extensionsGiven_ofWords hgiven
  rcases settingsIn_cases hfile h with
    ⟨found, hfound, hvalue, hexts, hown, hchosen, hcomplete⟩ | ⟨⟨fault, herror⟩, hmissing⟩ |
      ⟨herror, hexts⟩
  · rw [hfound]
    refine ⟨?_, fun _ _ _ _ => ⟨found, rfl⟩,
      fun _ hmissing => absurd ⟨hown, hcomplete, hchosen⟩ hmissing,
      fun hnothing => absurd hexts hnothing, htexts⟩
    rintro settings ⟨⟩
    exact ⟨hvalue, fun h => (hvalue .directory).trans (hone.layered_directory h),
      fun h => (hvalue .application).trans (hone.layered_application h), hcomplete, hchosen⟩
  · rw [herror]
    exact ⟨nofun, fun _ hown hcomplete hchosen => absurd ⟨hown, hchosen, hcomplete⟩ hmissing,
      fun _ _ => ⟨fault, rfl⟩, fun _ => .inl ⟨fault, rfl⟩, htexts⟩
  · rw [herror]
    exact ⟨nofun, fun hgiven => absurd hgiven hexts, fun hgiven => absurd hgiven hexts,
      fun _ => .inr rfl, htexts⟩

theorem ofWords_of_toOption (h : (Arguments.ofWords dropsDivider given).toOption = some a) :
    Arguments.ofWords dropsDivider given = .ok a := by
  cases hwords : Arguments.ofWords dropsDivider given with
  | error refusal =>
    rw [hwords] at h
    cases h
  | ok found =>
    rw [hwords] at h
    exact congrArg Except.ok (Option.some.inj h)

theorem configured_of_document {document : Text} (ha : a.config = some (.value "c.json"))
    (htext : Utf8.decode (Utf8.encode document) = .ok document)
    (hobject : Json.read limit (Settings.plainNewlines document) = .ok (.object members)) :
    Configured limit a ({ files := [([Text.ofString "c.json"], Utf8.encode document)] } : FileTree)
      members := by
  have hread : ((FileStore.read (Text.ofString "c.json") : StateM FileTree _).run
      { files := [([Text.ofString "c.json"], Utf8.encode document)] }).1 =
        .ok (Utf8.encode document) := rfl
  exact .file ha (by decide) hread htext hobject

/-- An object with an application and an extension to be normalized. -/
def applicationDocument : Text := "\x7b\"application\":\"a\",\"extensions\":[\".Zip\"]\x7d"

theorem configured_applicationDocument (ha : a.config = some (.value "c.json")) :
    Configured 988 a
      ({ files := [([Text.ofString "c.json"], Utf8.encode applicationDocument)] } : FileTree)
      [("application", .text "a"), ("extensions", .array [.text ".Zip"])] :=
  configured_of_document ha rfl rfl

/-- A directory on the command line takes the place of an application in the file. -/
theorem settingsOf_layered_directory :
    let tree : FileTree := { files := [([Text.ofString "c.json"], Utf8.encode applicationDocument)] }
    ∃ a settings,
      Arguments.ofWords false [Text.ofString "--config", "c.json", "-d", "apps", "-p", "com"] = .ok a ∧
      settingsIn 988 a tree = .ok settings ∧ settings.package = .text "com" ∧
      settings.application = .null ∧ settings.directory = .text "apps" ∧
      settings.value .extensions = .array [.text "zip"] := by
  intro tree
  have hwords : Arguments.ofWords false [Text.ofString "--config", "c.json", "-d", "apps", "-p", "com"] =
      .ok { config := some (.value "c.json"), directory := some (.value "apps"),
            package := some (.value "com") } := ofWords_of_toOption (by decide +kernel)
  have hreadable : Setting.Readable
      [(Text.ofString "application", .text "a"), (Text.ofString "extensions", .array [.text ".Zip"])] :=
    ⟨by decide, [".Zip"], rfl⟩
  have hzip : Settings.normalizeExtension ".Zip" = Text.ofString "zip" := by decide +kernel
  obtain ⟨hsettings, hfound, -⟩ :=
    settingsOf_layered hwords (configured_applicationDocument rfl) hreadable
  obtain ⟨settings, hok⟩ := hfound nofun ⟨⟨.log, rfl⟩, ⟨.ordered, rfl⟩⟩ ⟨rfl, by decide⟩
    ⟨⟨.log, rfl⟩, ⟨.ordered, rfl⟩⟩
  obtain ⟨hvalue, -, happlication, -, -⟩ := hsettings settings hok
  exact ⟨_, settings, hwords, hok, hvalue .package, happlication rfl, hvalue .directory,
    (hvalue .extensions).trans (congrArg (fun t => Json.array [.text t]) hzip)⟩

/-- Nothing is left with the extension where the divider is dropped, and there is no package at all. -/
theorem settingsOf_nothing :
    ∃ a, Arguments.ofWords true [Text.ofString "--ext=--"] = .ok a ∧
      (a.layered [] .package).isTruthy = false ∧
      settingsIn 988 a ({} : FileTree) = .error (.settings (.extensionType "list")) :=
  ⟨{ extensions := some [.nothing] }, ofWords_of_toOption (by decide +kernel), rfl, rfl⟩

end Callsite.CommandLine.Session
