import Callsite.CommandLine.Arguments
import Callsite.Proofs.Resolution
import Callsite.Proofs.SettingValues

/-!
# Arguments over settings

A setting has the value on the command line, or else the one below. An application or a directory on the
command line rules out the other, and no command line gives both.
-/

namespace Callsite.CommandLine

/-- What is given for a choice, as JSON. -/
def Given.labelled (label : α → String) : Given α → Json
  | .value choice => .text (label choice)
  | .nothing => .array []

namespace Arguments

/-- The value that the command line gives the setting. -/
def value? (a : Arguments) : Setting → Option Json
  | .package => a.package.map Given.toJson
  | .application => a.application.map Given.toJson
  | .directory => a.directory.map Given.toJson
  | .output => a.output.map Given.toJson
  | .format => a.format.map (Given.labelled Format.label)
  | .mode => a.mode.map (Given.labelled Mode.label)
  | .extensions => a.extensions.map fun given => .array (given.map Given.toJson)
  | .includeFields => if a.fields then some (.bool true) else none
  | .debug => if a.debug then some (.bool true) else none

/-- An application or a directory on the command line rules out the other in a file. -/
def rulesOut (a : Arguments) : Setting → Bool
  | .application => a.directory.any Given.isTruthy
  | .directory => a.application.any Given.isTruthy
  | _ => false

/-- The value on the command line, or else the one in the file, or else the default. -/
def layered (a : Arguments) (members : List (Text × Json)) (f : Setting) : Json :=
  (a.value? f).getD (if a.rulesOut f then .null else f.own members)

/-- Every extension on the command line is a text. -/
def ExtensionsGiven (a : Arguments) : Prop := ∀ given ∈ a.extensions, .nothing ∉ given

-- ---------------------------------------------------------------------------
-- Actions
-- ---------------------------------------------------------------------------

/-- A switch that takes a value is given one. -/
def Supplied (action : Action) : Prop := action.1.takesValue = true → action.2 ≠ .nothing

theorem supplied_value (s : Switch) (t : Text) : Supplied (s, .value t) := fun _ => nofun

theorem supplied_of_plain (h : ¬s.takesValue = true) (given : Given Text) : Supplied (s, given) :=
  fun htakes => absurd htakes h

theorem supplied_settlePlain (h : settlePlain next s = .ok (actions, used)) :
    ∀ action ∈ actions, Supplied action := by
  unfold settlePlain at h
  split at h
  next hplain =>
    cases h
    exact List.forall_mem_singleton.mpr (supplied_of_plain (by simpa using hplain) _)
  next =>
    cases next with
    | none => cases h
    | some value =>
      cases h
      exact List.forall_mem_singleton.mpr (supplied_value s value)

theorem supplied_settleAttached
    (h : settleAttached false next s isShort attached = .ok (actions, used)) :
    ∀ action ∈ actions, Supplied action := by
  induction attached generalizing s isShort actions used with
  | nil =>
    rw [settleAttached] at h
    split at h
    next =>
      cases h
      exact List.forall_mem_singleton.mpr (supplied_value s [])
    next => cases h
  | cons c rest ih =>
    rw [settleAttached] at h
    split at h
    next =>
      cases h
      exact List.forall_mem_singleton.mpr (supplied_value s (c :: rest))
    next hplain =>
      split at h
      next => cases h
      next following _ =>
        cases rest with
        | nil =>
          obtain ⟨⟨more, _⟩, hmore, h⟩ := Except.bind_ok.mp h
          cases h
          exact List.forall_mem_cons.mpr ⟨supplied_of_plain hplain _, supplied_settlePlain hmore⟩
        | cons d tail =>
          obtain ⟨⟨more, _⟩, hmore, h⟩ := Except.bind_ok.mp h
          cases h
          exact List.forall_mem_cons.mpr ⟨supplied_of_plain hplain _, ih hmore⟩

/-- Where no divider is dropped, nothing is missing. -/
theorem supplied_settle (h : settle false next s isShort attached = .ok (actions, used)) :
    ∀ action ∈ actions, Supplied action := by
  cases attached with
  | none => exact supplied_settlePlain h
  | some attached => exact supplied_settleAttached h

/-- A switch is acted on, with the word behind it or without, and the rest is taken from there. -/
theorem exists_of_take_switch {a : Arguments}
    (h : a.take dropsDivider extras (.switch s isShort attached :: rest) = .ok (a', extras')) :
    ∃ (next : Option Text) (actions : List Action) (used : Bool) (a₁ : Arguments)
      (extras₁ : List Text) (rest₁ : List Word),
      settle dropsDivider next s isShort attached = .ok (actions, used) ∧
        actions.foldlM Arguments.act a = .ok a₁ ∧ rest₁.length ≤ rest.length ∧
        a₁.take dropsDivider extras₁ rest₁ = .ok (a', extras') := by
  cases rest with
  | nil =>
    obtain ⟨⟨actions, used⟩, hsettle, h⟩ := Except.bind_ok.mp h
    obtain ⟨a₁, hact, hrest⟩ := Except.bind_ok.mp h
    exact ⟨_, actions, used, a₁, _, _, hsettle, hact, Nat.le_refl _, hrest⟩
  | cons w rest =>
    cases w with
    | plain value =>
      obtain ⟨⟨actions, used⟩, hsettle, h⟩ := Except.bind_ok.mp h
      obtain ⟨a₁, hact, hrest⟩ := Except.bind_ok.mp h
      exact ⟨_, actions, used, a₁, _, _, hsettle, hact, Nat.le_succ _, hrest⟩
    | divider | switch | unknown =>
      obtain ⟨⟨actions, used⟩, hsettle, h⟩ := Except.bind_ok.mp h
      obtain ⟨a₁, hact, hrest⟩ := Except.bind_ok.mp h
      exact ⟨_, actions, used, a₁, _, _, hsettle, hact, Nat.le_refl _, hrest⟩

/-- Every action of a command line keeps the property. -/
def Keeps (dropsDivider : Bool) (P : Arguments → Prop) : Prop :=
  ∀ a action a', (dropsDivider = false → Supplied action) → a.act action = .ok a' → P a → P a'

section

variable {P : Arguments → Prop} (hkeeps : Keeps dropsDivider P)

include hkeeps

theorem Keeps.foldlM {actions : List Action}
    (hactions : ∀ action ∈ actions, dropsDivider = false → Supplied action)
    (h : actions.foldlM Arguments.act a = .ok a') (ha : P a) : P a' := by
  induction actions generalizing a with
  | nil =>
    cases h
    exact ha
  | cons action actions ih =>
    rw [List.foldlM_cons] at h
    obtain ⟨next, hnext, hrest⟩ := Except.bind_ok.mp h
    obtain ⟨haction, hactions⟩ := List.forall_mem_cons.mp hactions
    exact ih hactions hrest (hkeeps a action next haction hnext ha)

theorem Keeps.take {ws : List Word} (h : a.take dropsDivider extras ws = .ok (a', extras')) (ha : P a) :
    P a' := by
  -- a switch may take the next word with it, so the induction is on the length
  induction hn : ws.length using Nat.strongRecOn generalizing a extras ws with
  | ind n ih =>
    cases ws with
    | nil =>
      cases h
      exact ha
    | cons w rest =>
      have hrest : rest.length < n := hn ▸ Nat.lt_succ_self rest.length
      cases w with
      | plain | divider | unknown =>
        rw [Arguments.take] at h
        exact ih rest.length hrest h ha rfl
      | switch s isShort attached =>
        obtain ⟨next, actions, used, a₁, _, rest₁, hsettle, hact, hlength, h⟩ := exists_of_take_switch h
        have hactions : ∀ action ∈ actions, dropsDivider = false → Supplied action := by
          rintro action haction rfl
          exact supplied_settle hsettle action haction
        exact ih _ (Nat.lt_of_le_of_lt hlength hrest) h (hkeeps.foldlM hactions hact ha) rfl

theorem Keeps.ofWords (h : ofWords dropsDivider given = .ok a) (hnone : P {}) : P a := by
  obtain ⟨ws, -, h⟩ := Except.bind_ok.mp h
  obtain ⟨⟨a', extras⟩, htake, h⟩ := Except.bind_ok.mp h
  have htaken : P a' := hkeeps.take htake hnone
  dsimp only at h
  split at h
  next =>
    cases h
    exact htaken
  next => cases h

end

/-- The application and the directory are not both given. -/
def OneTarget (a : Arguments) : Prop := a.application = none ∨ a.directory = none

theorem keeps_oneTarget (dropsDivider : Bool) : Keeps dropsDivider OneTarget := by
  rintro a ⟨switch, value⟩ a' - h ha
  cases switch with
  | help => cases h
  | application =>
    rw [Arguments.act] at h
    split at h
    next => cases h
    next hnone =>
      cases h
      exact .inr (Option.not_isSome_iff_eq_none.mp hnone)
  | directory =>
    rw [Arguments.act] at h
    split at h
    next => cases h
    next hnone =>
      cases h
      exact .inl (Option.not_isSome_iff_eq_none.mp hnone)
  | format | mode =>
    obtain ⟨choice, -, h⟩ := Except.bind_ok.mp h
    cases h
    exact ha
  | package | output | fields | extension | config | info | debug =>
    cases h
    exact ha

theorem oneTarget_ofWords (h : ofWords dropsDivider given = .ok a) : a.OneTarget :=
  (keeps_oneTarget dropsDivider).ofWords h (.inl rfl)

theorem keeps_extensionsGiven : Keeps false ExtensionsGiven := by
  rintro a ⟨switch, value⟩ a' hsupplied h ha
  cases switch with
  | help => cases h
  | application | directory =>
    rw [Arguments.act] at h
    split at h
    next => cases h
    next =>
      cases h
      exact ha
  | format | mode =>
    obtain ⟨choice, -, h⟩ := Except.bind_ok.mp h
    cases h
    exact ha
  | extension =>
    cases h
    rintro given ⟨⟩
    refine List.not_mem_append ?_ (mt List.mem_singleton.mp (hsupplied rfl rfl).symm)
    cases hbefore : a.extensions with
    | none => exact List.not_mem_nil
    | some before => exact ha before hbefore
  | package | output | fields | config | info | debug =>
    cases h
    exact ha

/-- Where no divider is dropped, every extension on the command line is a text. -/
theorem extensionsGiven_ofWords (h : ofWords false given = .ok a) : a.ExtensionsGiven :=
  keeps_extensionsGiven.ofWords h nofun

-- ---------------------------------------------------------------------------
-- Layers
-- ---------------------------------------------------------------------------

open Setting (Chosen Complete)

theorem OneTarget.layered_directory {a : Arguments} (ha : a.OneTarget)
    (h : a.application.any Given.isTruthy = true) : a.layered members .directory = .null := by
  rcases ha with hnone | hnone
  · rw [hnone] at h
    cases h
  · rw [layered, value?, rulesOut, hnone, h]
    rfl

theorem OneTarget.layered_application {a : Arguments} (ha : a.OneTarget)
    (h : a.directory.any Given.isTruthy = true) : a.layered members .application = .null := by
  rcases ha with hnone | hnone
  · rw [layered, value?, rulesOut, hnone, h]
    rfl
  · rw [hnone] at h
    cases h

/-- A setting is the one on the command line, or else the one below. -/
theorem chosen_cases (label : α → String) (fault : Json → SettingsFault) (below : α)
    (given : Option (Given α)) :
    (∃ choice, (given.map (Given.labelled label)).getD (.text (label below)) = .text (label choice) ∧
      chosen fault below given = .ok choice) ∨
    ((¬∃ choice, (given.map (Given.labelled label)).getD (.text (label below)) = .text (label choice)) ∧
      chosen fault below given = .error (fault (.array []))) := by
  cases given with
  | none => exact .inl ⟨below, rfl, rfl⟩
  | some g =>
    cases g with
    | value choice => exact .inl ⟨choice, rfl, rfl⟩
    | nothing => exact .inr ⟨nofun, rfl⟩

theorem mapM_extension_cases (given : List (Given Text)) :
    (.nothing ∉ given ∧ ∃ ts : List Text, given.map Given.toJson = ts.map .text ∧
      (given.mapM fun g => Settings.extension g.toJson) =
        .ok (ts.map Settings.normalizeExtension)) ∨
    (.nothing ∈ given ∧
      (given.mapM fun g => Settings.extension g.toJson) = .error (.extensionType "list")) := by
  induction given with
  | nil => exact .inl ⟨List.not_mem_nil, [], rfl, rfl⟩
  | cons g given ih =>
    rw [List.mapM_cons]
    cases g with
    | nothing => exact .inr ⟨List.mem_cons_self, rfl⟩
    | value t =>
      rcases ih with ⟨hall, ts, hts, hok⟩ | ⟨hnothing, herror⟩
      · refine .inl ⟨List.not_mem_cons_of_ne_of_not_mem nofun hall, t :: ts,
          congrArg (Json.text t :: ·) hts, ?_⟩
        rw [hok]
        rfl
      · refine .inr ⟨List.mem_cons_of_mem _ hnothing, ?_⟩
        rw [herror]
        rfl

variable {a : Arguments} {members : List (Text × Json)} {base : Settings}

theorem extensionsOver_cases (a : Arguments) (base : Settings) :
    (a.ExtensionsGiven ∧ ∃ ts, a.extensionsOver base = .ok ts ∧ ∀ members,
      base.value .extensions = Setting.normalize .extensions (Setting.own members .extensions) →
        .array (ts.map .text) = Setting.normalize .extensions (a.layered members .extensions)) ∨
    (¬a.ExtensionsGiven ∧ a.extensionsOver base = .error (.extensionType "list")) := by
  simp only [extensionsOver, ExtensionsGiven, layered, value?]
  cases a.extensions with
  | none =>
    refine .inl ⟨nofun, _, rfl, fun members hbase => ?_⟩
    -- normalized a second time
    rw [← Setting.normalize_texts]
    exact (congrArg _ hbase).trans (Setting.normalize_normalize _ _)
  | some given =>
    rcases mapM_extension_cases given with ⟨hall, ts, hts, hok⟩ | ⟨hnothing, herror⟩
    · refine .inl ⟨fun _ hgiven => Option.some.inj hgiven ▸ hall, _, hok, fun members _ => ?_⟩
      rw [← Setting.normalize_texts, ← hts]
      rfl
    · exact .inr ⟨fun hall => hall given rfl hnothing, herror⟩

theorem value_laidOver {format : Format} {mode : Mode} {extensions : List Text}
    (hbase : ∀ f, base.value f = f.normalize (f.own members))
    (hformat : a.layered members .format = .text format.label)
    (hmode : a.layered members .mode = .text mode.label)
    (hextensions : .array (extensions.map .text) =
      Setting.normalize .extensions (a.layered members .extensions)) (f : Setting) :
    (a.laidOver base format mode extensions).value f = f.normalize (a.layered members f) := by
  cases f with
  | package => exact congrArg (a.package.map Given.toJson).getD (hbase .package)
  | application =>
    simp only [Settings.value, laidOver, Setting.normalize, layered, value?, rulesOut]
    -- both targets are set back by either, which matters only where the command line has none
    cases a.application with
    | some given => rfl
    | none => exact congrArg (ite _ Json.null) (hbase .application)
  | directory =>
    simp only [Settings.value, laidOver, Setting.normalize, layered, value?, rulesOut]
    cases a.directory with
    | some given => rfl
    | none =>
      rw [Option.any_none, Bool.or_false]
      exact congrArg (ite _ Json.null) (hbase .directory)
  | output => exact congrArg (a.output.map Given.toJson).getD (hbase .output)
  | format => exact hformat.symm
  | mode => exact hmode.symm
  | extensions => exact hextensions
  | includeFields =>
    simp only [Settings.value, laidOver, Setting.normalize, layered, value?]
    cases a.fields with
    | true => rfl
    | false => exact hbase .includeFields
  | debug =>
    simp only [Settings.value, laidOver, Setting.normalize, layered, value?]
    cases a.debug with
    | true => rfl
    | false => exact hbase .debug

/-- The settings with the arguments over them have the layered values, unless a choice or an extension
is given nothing. -/
theorem override_cases (hbase : ∀ f, base.value f = f.normalize (f.own members)) :
    (a.ExtensionsGiven ∧ Chosen (a.layered members) ∧ ∃ s, a.override base = .ok s ∧
      ∀ f, s.value f = f.normalize (a.layered members f)) ∨
    (¬Chosen (a.layered members) ∧
      ∃ fault, a.override base = .error fault ∧ fault.isUsageFault = true) ∨
    (¬a.ExtensionsGiven ∧ a.override base = .error (.extensionType "list")) := by
  have hformat : (a.format.map (Given.labelled Format.label)).getD (.text base.format.label) =
      a.layered members .format := congrArg (Option.getD _) (hbase .format)
  have hmode : (a.mode.map (Given.labelled Mode.label)).getD (.text base.mode.label) =
      a.layered members .mode := congrArg (Option.getD _) (hbase .mode)
  rw [override]
  rcases chosen_cases Format.label .unknownFormat base.format a.format with
    ⟨format, hlabel, hok⟩ | ⟨hnone, herror⟩
  · rcases chosen_cases Mode.label .unknownMode base.mode a.mode with
      ⟨mode, hlabel', hok'⟩ | ⟨hnone', herror'⟩
    · rw [hformat] at hlabel
      rw [hmode] at hlabel'
      rcases extensionsOver_cases a base with ⟨hgiven, ts, hts, hvalue⟩ | ⟨hgiven, herror⟩
      · refine .inl ⟨hgiven, ⟨⟨format, hlabel⟩, ⟨mode, hlabel'⟩⟩, a.laidOver base format mode ts, ?_,
          value_laidOver hbase hlabel hlabel' (hvalue members (hbase .extensions))⟩
        rw [hok, hok', hts]
        rfl
      · refine .inr (.inr ⟨hgiven, ?_⟩)
        rw [hok, hok', herror]
        rfl
    · refine .inr (.inl ⟨fun hchosen => hnone' (hmode ▸ hchosen.mode), .unknownMode (.array []),
        ?_, rfl⟩)
      rw [hok, herror']
      rfl
  · refine .inr (.inl ⟨fun hchosen => hnone (hformat ▸ hchosen.format), .unknownFormat (.array []),
      ?_, rfl⟩)
    rw [herror]
    rfl

theorem check_cases (s : Settings) :
    (Complete s.value ∧ check s = .ok s) ∨ (¬Complete s.value ∧ ∃ fault, check s = .error fault) := by
  rw [check]
  cases hpackage : s.package.isTruthy with
  | false => exact .inr ⟨fun h => Bool.noConfusion (hpackage.symm.trans h.package), _, rfl⟩
  | true =>
    rw [Bool.not_true, if_neg Bool.false_ne_true]
    split
    next htarget => exact .inr ⟨fun h => h.target htarget, _, rfl⟩
    next htarget => exact .inl ⟨⟨hpackage, htarget⟩, rfl⟩

end Arguments

end Callsite.CommandLine
