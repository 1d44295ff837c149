import Callsite.Proofs.LowerCase

/-!
# Values of settings

Every setting has a key in files and a default. The values of all settings are compared as JSON, and
extensions in normal form. An object in a file gives settings of its own values, where format and mode
are ones that there are.
-/

namespace Callsite

-- ---------------------------------------------------------------------------
-- Settings one by one
-- ---------------------------------------------------------------------------

inductive Setting
  | package
  | application
  | directory
  | output
  | format
  | mode
  | extensions
  | includeFields
  | debug
  deriving DecidableEq

namespace Setting

/-- The key of the setting in a file. -/
def key : Setting → String
  | .package => "package"
  | .application => "application"
  | .directory => "directory"
  | .output => "output"
  | .format => "report_format"
  | .mode => "mode"
  | .extensions => "extensions"
  | .includeFields => "include_fields"
  | .debug => "debug"

def standard : Setting → Json
  | .package => .text []
  | .application | .directory | .output => .null
  | .format => .text "log"
  | .mode => .text "ordered"
  | .extensions => .array [.text "jar"]
  | .includeFields | .debug => .bool false

/-- The value of the setting in a file, or else its default. -/
def own (members : List (Text × Json)) (f : Setting) : Json :=
  (Json.member? members f.key).getD f.standard

def normalizeText : Json → Json
  | .text t => .text (Settings.normalizeExtension t)
  | other => other

/-- Extensions are kept in lower case and without dots in front, all else as it is. -/
def normalize : Setting → Json → Json
  | .extensions, .array items => .array (items.map normalizeText)
  | _, value => value

/-- Format and mode are among those that there are. -/
structure Chosen (value : Setting → Json) : Prop where
  format : ∃ format : Format, value .format = .text format.label
  mode : ∃ mode : Mode, value .mode = .text mode.label

/-- There is a package, and either an application or a directory. -/
structure Complete (value : Setting → Json) : Prop where
  package : (value .package).isTruthy = true
  target : (value .application).isTruthy ≠ (value .directory).isTruthy

end Setting

def Settings.value (s : Settings) : Setting → Json
  | .package => s.package
  | .application => s.application
  | .directory => s.directory
  | .output => s.output
  | .format => .text s.format.label
  | .mode => .text s.mode.label
  | .extensions => .array (s.extensions.map .text)
  | .includeFields => s.includeFields
  | .debug => s.debug

-- ---------------------------------------------------------------------------
-- Choices and extensions
-- ---------------------------------------------------------------------------

theorem Format.ofText?_eq_some {t : Text} {format : Format} :
    ofText? t = some format ↔ t = Text.ofString format.label := by
  constructor
  · intro h
    rw [ofText?] at h
    split at h
    next hlog => cases h; exact hlog
    next =>
      split at h
      next hcsv => cases h; exact hcsv
      next => cases h
  · rintro rfl
    cases format <;> decide

theorem Mode.ofText?_eq_some {t : Text} {mode : Mode} :
    ofText? t = some mode ↔ t = Text.ofString mode.label := by
  constructor
  · intro h
    rw [ofText?] at h
    split at h
    next hordered => cases h; exact hordered
    next =>
      split at h
      next hunordered => cases h; exact hunordered
      next => cases h
  · rintro rfl
    cases mode <;> decide

namespace Settings

/-- A value names a choice, or is a fault of the user. -/
theorem choiceOf_cases {ofText? : Text → Option α} {label : α → String}
    (h : ∀ {t choice}, ofText? t = some choice ↔ t = Text.ofString (label choice))
    (fault : Json → SettingsFault) (v : Json) :
    (∃ choice, v = .text (label choice) ∧ choiceOf ofText? fault v = .ok choice) ∨
      (¬∃ choice, v = .text (label choice)) ∧ choiceOf ofText? fault v = .error (fault v) := by
  cases v with
  | text t =>
    rw [choiceOf]
    cases hchoice : ofText? t with
    | some choice => exact .inl ⟨choice, congrArg Json.text (h.mp hchoice), rfl⟩
    | none =>
      refine .inr ⟨?_, rfl⟩
      rintro ⟨choice, heq⟩
      rw [h.mpr (Json.text.inj heq)] at hchoice
      cases hchoice
  | null | bool | int | float | array | object => exact .inr ⟨nofun, rfl⟩

theorem mapM_extension (ts : List Text) :
    (ts.map Json.text).mapM extension = .ok (ts.map normalizeExtension) := by
  rw [List.mapM_map]
  exact List.mapM_pure

end Settings

namespace Setting

theorem normalize_texts (ts : List Text) : normalize .extensions (.array (ts.map .text)) =
    .array ((ts.map Settings.normalizeExtension).map .text) := by
  rw [normalize, List.map_map, List.map_map]
  rfl

theorem normalizeText_normalizeText (v : Json) : normalizeText (normalizeText v) = normalizeText v := by
  cases v with
  | text t => exact congrArg Json.text (Settings.normalizeExtension_normalizeExtension t)
  | null | bool | int | float | array | object => rfl

/-- To normalize a setting once is enough. -/
theorem normalize_normalize (f : Setting) (v : Json) : f.normalize (f.normalize v) = f.normalize v := by
  cases f with
  | extensions =>
    cases v with
    | array items => simp [normalize, normalizeText_normalizeText]
    | null | bool | int | float | text | object => rfl
  | _ => rfl

/-- Nothing that is needed is changed by normalizing. -/
theorem complete_normalize {value value' : Setting → Json} (h : ∀ f, value f = f.normalize (value' f)) :
    Complete value ↔ Complete value' := by
  have hpackage : value .package = value' .package := h .package
  have happlication : value .application = value' .application := h .application
  have hdirectory : value .directory = value' .directory := h .directory
  constructor
  · rintro ⟨hgiven, htarget⟩
    rw [hpackage] at hgiven
    rw [happlication, hdirectory] at htarget
    exact ⟨hgiven, htarget⟩
  · rintro ⟨hgiven, htarget⟩
    rw [← hpackage] at hgiven
    rw [← happlication, ← hdirectory] at htarget
    exact ⟨hgiven, htarget⟩

end Setting

-- ---------------------------------------------------------------------------
-- Settings in a file
-- ---------------------------------------------------------------------------

/-- All keys are known, and the extensions are texts. -/
structure Setting.Readable (members : List (Text × Json)) : Prop where
  keys : ∀ member ∈ members, member.1 ∈ Settings.keys
  extensions : ∃ ts : List Text, own members .extensions = .array (ts.map .text)

namespace Settings

/-- Settings of the given values, or a fault of usage if format or mode is none that there is. -/
inductive Realizes (value : Setting → Json) : Except SettingsFault Settings → Prop
  | settings (hchosen : Setting.Chosen value) (hvalue : ∀ f, s.value f = f.normalize (value f)) :
    Realizes value (.ok s)
  | fault (hchosen : ¬Setting.Chosen value) (hfault : fault.isUsageFault = true) :
    Realizes value (.error fault)

/-- An object without members stands for the defaults. -/
theorem ofObject_nil (path : Text) : ofObject path [] = .ok {} := by
  have hjar : normalizeExtension "jar" = Text.ofString "jar" := by decide +kernel
  exact congrArg (fun t => Except.ok ({ extensions := [t] } : Settings)) hjar

/-- The choices are made first, and go on to the rest if there are any such. -/
theorem choices_cases (value : Setting → Json) (rest : Format → Mode → Except SettingsFault Settings) :
    (∃ (format : Format) (mode : Mode), value .format = .text format.label ∧
      value .mode = .text mode.label ∧
      (do rest (← formatOf (value .format)) (← modeOf (value .mode))) = rest format mode) ∨
    (¬Setting.Chosen value ∧ ∃ fault,
      (do rest (← formatOf (value .format)) (← modeOf (value .mode))) = .error fault ∧
        fault.isUsageFault = true) := by
  rw [formatOf, modeOf]
  rcases choiceOf_cases Format.ofText?_eq_some .unknownFormat (value .format) with
    ⟨format, hformat, hok⟩ | ⟨hformat, herror⟩
  · rcases choiceOf_cases Mode.ofText?_eq_some .unknownMode (value .mode) with
      ⟨mode, hmode, hok'⟩ | ⟨hmode, herror'⟩
    · rw [hok, hok']
      exact .inl ⟨format, mode, hformat, hmode, rfl⟩
    · rw [hok, herror']
      exact .inr ⟨fun hchosen => hmode hchosen.mode, _, rfl, rfl⟩
  · rw [herror]
    exact .inr ⟨fun hchosen => hformat hchosen.format, _, rfl, rfl⟩

variable {members : List (Text × Json)}

/-- A default that passes its check need not be told apart from a value. -/
theorem memberOr_eq {check : Json → Except SettingsFault α} (f : Setting)
    (h : check f.standard = .ok fallback) :
    memberOr members f.key check fallback = check (f.own members) := by
  rw [memberOr, Setting.own]
  cases Json.member? members f.key with
  | some value => rfl
  | none => exact h.symm

theorem ofMembers_eq (h : ∀ member ∈ members, member.1 ∈ keys) :
    ofMembers members = (do
      let format ← formatOf (Setting.own members .format)
      let mode ← modeOf (Setting.own members .mode)
      let extensions ← extensionsOf (Setting.own members .extensions)
      return {
        package := Setting.own members .package
        application := Setting.own members .application
        directory := Setting.own members .directory
        output := Setting.own members .output
        format
        mode
        extensions
        includeFields := Setting.own members .includeFields
        debug := Setting.own members .debug }) := by
  have hknown : members.find? (fun member => !keys.contains member.1) = none := by
    simpa using h
  have hformat : memberOr members "report_format" formatOf .log =
      formatOf (Setting.own members .format) := memberOr_eq .format rfl
  have hmode : memberOr members "mode" modeOf .ordered = modeOf (Setting.own members .mode) :=
    memberOr_eq .mode rfl
  have hextensions : memberOr members "extensions" extensionsOf [normalizeExtension "jar"] =
      extensionsOf (Setting.own members .extensions) := memberOr_eq .extensions rfl
  rw [ofMembers, hknown]
  simp only [List.map_cons, List.map_nil, hformat, hmode, hextensions]
  rfl

theorem memberOr_elements_ok (h : elements (Setting.own members .extensions) = .ok items) :
    ∃ found, memberOr members "extensions" elements [] = .ok found := by
  rw [memberOr]
  cases hmember : Json.member? members "extensions" with
  | none => exact ⟨[], rfl⟩
  | some value =>
    rw [Setting.own, Setting.key, hmember] at h
    exact ⟨items, h⟩

theorem memberOr_elements_error (h : elements (Setting.own members .extensions) = .error fault) :
    memberOr members "extensions" elements [] = .error fault := by
  rw [Setting.own, Setting.key] at h
  rw [memberOr]
  cases hmember : Json.member? members "extensions" with
  | none =>
    rw [hmember] at h
    cases h
  | some value =>
    rw [hmember] at h
    exact h

theorem ofObject_eq (hkeys : ∀ member ∈ members, member.1 ∈ keys)
    (hitems : elements (Setting.own members .extensions) = .ok items) (path : Text) :
    ofObject path members = ofMembers members := by
  have hknown : (members.map Prod.fst).filter (!keys.contains ·) = [] := by
    simpa using hkeys
  obtain ⟨found, hfound⟩ := memberOr_elements_ok hitems
  rw [ofObject, hknown]
  simp only [hfound]
  rfl

theorem realizes_ofObject (h : Setting.Readable members) (path : Text) :
    Realizes (Setting.own members) (ofObject path members) := by
  obtain ⟨ts, hts⟩ := h.extensions
  have hextensions : extensionsOf (Setting.own members .extensions) =
      .ok (ts.map normalizeExtension) := by
    rw [hts]
    exact mapM_extension ts
  have hitems : elements (Setting.own members .extensions) = .ok (ts.map .text) := by
    rw [hts]
    rfl
  rw [ofObject_eq h.keys hitems, ofMembers_eq h.keys, hextensions]
  rcases choices_cases (Setting.own members) _ with
    ⟨format, mode, hformat, hmode, hrest⟩ | ⟨hchosen, fault, herror, hfault⟩
  · rw [hrest]
    refine .settings ⟨⟨format, hformat⟩, ⟨mode, hmode⟩⟩ fun f => ?_
    cases f with
    | format => exact hformat.symm
    | mode => exact hmode.symm
    | extensions =>
      rw [hts, Setting.normalize_texts]
      rfl
    | _ => rfl
  · rw [herror]
    exact .fault hchosen hfault

end Settings

end Callsite
