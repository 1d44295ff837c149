import Callsite.Proofs.JsonDepth
import Callsite.Proofs.SettingLayers

/-!
# What is wrong with settings

Whatever a file holds, it and the command line come to settings or to wrong usage, but for three things:
a document that is nested too deep, a value among the extensions in the file that is no text, and an
extension on the command line that is given nothing (`settingsOf_usage_or_stray`). A number where an
extension should be is enough to get past the messages about usage (`settingsOf_number`).
-/

namespace Callsite

open Setting (Chosen)

-- ---------------------------------------------------------------------------
-- Objects
-- ---------------------------------------------------------------------------

namespace Settings

/-- The first of the values that is no text. -/
def FirstOther (items : List Json) (item : Json) : Prop :=
  ∃ (ts : List Text) (rest : List Json), items = ts.map .text ++ item :: rest ∧ ∀ t, item ≠ .text t

theorem texts_or_firstOther (items : List Json) :
    (∃ ts : List Text, items = ts.map .text) ∨ ∃ item, FirstOther items item := by
  induction items with
  | nil => exact .inl ⟨[], rfl⟩
  | cons item items ih =>
    cases item with
    | text t =>
      rcases ih with ⟨ts, rfl⟩ | ⟨other, ts, rest, rfl, hother⟩
      · exact .inl ⟨t :: ts, rfl⟩
      · exact .inr ⟨other, t :: ts, rest, rfl, hother⟩
    | null | bool | int | float | array | object => exact .inr ⟨_, [], items, rfl, nofun⟩

theorem extension_of_other {item : Json} (h : ∀ t, item ≠ .text t) :
    extension item = .error (.extensionType item.typeName) := by
  cases item with
  | text t => exact absurd rfl (h t)
  | null | bool | int | float | array | object => rfl

theorem FirstOther.mapM (h : FirstOther items item) :
    items.mapM extension = .error (.extensionType item.typeName) := by
  obtain ⟨ts, rest, rfl, hother⟩ := h
  rw [List.mapM_append, mapM_extension, List.mapM_cons, extension_of_other hother]
  rfl

end Settings

/-- The object is in order up to the values that its extensions hold. -/
structure Setting.Holds (members : List (Text × Json)) (items : List Json) : Prop where
  keys : ∀ member ∈ members, member.1 ∈ Settings.keys
  items : Settings.elements (own members .extensions) = .ok items
  chosen : Chosen (own members)

namespace Settings

variable {members : List (Text × Json)} {items : List Json}

theorem ofObject_of_holds (h : Setting.Holds members items) (path : Text) :
    ∃ settings : List Text → Settings, ofObject path members = settings <$> items.mapM extension := by
  rw [ofObject_eq h.keys h.items, ofMembers_eq h.keys, extensionsOf, h.items]
  rcases choices_cases (Setting.own members) _ with
    ⟨format, mode, -, -, hrest⟩ | ⟨hchosen, -⟩
  · rw [hrest]
    exact ⟨_, (map_eq_pure_bind _ _).symm⟩
  · exact absurd h.chosen hchosen

theorem ofObject_of_texts {ts : List Text} (h : Setting.Holds members (ts.map .text)) (path : Text) :
    ∃ settings, ofObject path members = .ok settings := by
  obtain ⟨settings, hobject⟩ := ofObject_of_holds h path
  rw [mapM_extension] at hobject
  exact ⟨_, hobject⟩

theorem ofObject_of_other (h : Setting.Holds members items) (hitem : FirstOther items item) (path : Text) :
    ofObject path members = .error (.extensionType item.typeName) := by
  obtain ⟨settings, hobject⟩ := ofObject_of_holds h path
  rw [hitem.mapM] at hobject
  exact hobject

theorem isUsageFault_of_elements {value : Json} (h : elements value = .error fault) :
    fault.isUsageFault = true := by
  cases value with
  | text | array | object => cases h
  | null | bool | int | float =>
    cases h
    rfl

theorem ofObject_of_not_holds (h : ∀ items, ¬Setting.Holds members items) (path : Text) :
    ∃ fault, ofObject path members = .error fault ∧ fault.isUsageFault = true := by
  cases hunknown : (members.map Prod.fst).filter (!keys.contains ·) with
  | cons key rest =>
    rw [ofObject, hunknown]
    exact ⟨_, rfl, rfl⟩
  | nil =>
    have hkeys : ∀ member ∈ members, member.1 ∈ keys := by simpa using hunknown
    cases hitems : elements (Setting.own members .extensions) with
    | error fault =>
      refine ⟨fault, ?_, isUsageFault_of_elements hitems⟩
      rw [ofObject, hunknown]
      simp only [memberOr_elements_error hitems]
      rfl
    | ok items =>
      rw [ofObject_eq hkeys hitems, ofMembers_eq hkeys]
      rcases choices_cases (Setting.own members) _ with
        ⟨format, mode, hformat, hmode, -⟩ | ⟨-, hfault⟩
      · exact absurd ⟨hkeys, hitems, ⟨format, hformat⟩, ⟨mode, hmode⟩⟩ (h items)
      · exact hfault

end Settings

-- ---------------------------------------------------------------------------
-- Arguments
-- ---------------------------------------------------------------------------

namespace CommandLine.Arguments

/-- Neither format nor mode is given nothing on the command line. -/
def ChoicesGiven (a : Arguments) : Prop := a.format ≠ some .nothing ∧ a.mode ≠ some .nothing

theorem chosen_given {given : Option (Given α)} (h : given ≠ some .nothing)
    (fault : Json → SettingsFault) (below : α) : ∃ choice, chosen fault below given = .ok choice := by
  cases given with
  | none => exact ⟨below, rfl⟩
  | some g =>
    cases g with
    | value choice => exact ⟨choice, rfl⟩
    | nothing => exact absurd rfl h

variable {a : Arguments}

theorem override_of_given (h : a.ChoicesGiven) (base : Settings) :
    ∃ settings : List Text → Settings, a.override base = settings <$> a.extensionsOver base := by
  obtain ⟨format, hformat⟩ := chosen_given h.1 .unknownFormat base.format
  obtain ⟨mode, hmode⟩ := chosen_given h.2 .unknownMode base.mode
  rw [override, hformat, hmode]
  exact ⟨a.laidOver base format mode, (map_eq_pure_bind _ (a.extensionsOver base)).symm⟩

theorem override_of_not_given (h : ¬a.ChoicesGiven) (base : Settings) :
    ∃ fault, a.override base = .error fault ∧ fault.isUsageFault = true := by
  rw [override]
  by_cases hformat : a.format = some .nothing
  · rw [hformat]
    exact ⟨_, rfl, rfl⟩
  · have hmode : a.mode = some .nothing := by
      by_contra hmode
      exact h ⟨hformat, hmode⟩
    obtain ⟨format, hchosen⟩ := chosen_given hformat .unknownFormat base.format
    rw [hchosen, hmode]
    exact ⟨_, rfl, rfl⟩

end CommandLine.Arguments

-- ---------------------------------------------------------------------------
-- Sessions
-- ---------------------------------------------------------------------------

namespace CommandLine.Session

open Settings (FirstOther)

variable {σ : Type} [FileStore (StateM σ)] {limit : Nat} {a : Arguments} {s : σ}

/-- The file that the arguments name can be read, and holds the document. -/
inductive Documented (a : Arguments) (s : σ) : Text → Prop
  | file (hconfig : a.config = some (.value (c :: path))) (hname : FileName.Fits (c :: path))
      (hread : ((FileStore.read (c :: path) : StateM σ _).run s).1 = .ok content)
      (htext : Utf8.decode content = .ok text) : Documented a s (Settings.plainNewlines text)

/-- The faults that are not put down to wrong usage. -/
inductive Stray (limit : Nat) (a : Arguments) (s : σ) : SettingsFault → Prop
  | depth (hfile : Documented a s document)
      (hread : Json.read limit document = .error (.tooDeep container)) :
      Stray limit a s (.malformed document (.tooDeep container))
  | inFile (hfile : Configured limit a s members) (hobject : Setting.Holds members items)
      (hitem : FirstOther items item) : Stray limit a s (.extensionType item.typeName)
  | onCommandLine (hfile : Configured limit a s members) (ts : List Text)
      (hobject : Setting.Holds members (ts.map .text)) (hchoices : a.ChoicesGiven)
      (hnothing : ¬a.ExtensionsGiven) : Stray limit a s (.extensionType "list")

theorem Documented.settingsIn_eq (hfile : Documented a s document)
    (hread : Json.read limit document = .error fault) :
    settingsIn limit a s = conclude a (.error (.malformed document fault)) := by
  obtain ⟨hconfig, hname, hcontent, htext⟩ := hfile
  rw [settingsIn_file limit hconfig hname hcontent, Settings.ofContent, htext]
  simp only [hread]

theorem Stray.settingsIn_eq (h : Stray limit a s fault) :
    settingsIn limit a s = .error (.settings fault) := by
  cases h with
  | depth hfile hread =>
    rw [hfile.settingsIn_eq hread]
    exact conclude_settings rfl rfl
  | inFile hfile hobject hitem =>
    obtain ⟨path, hpath⟩ := settingsIn_configured hfile
    rw [hpath, Settings.ofObject_of_other hobject hitem]
    exact conclude_settings rfl rfl
  | onCommandLine hfile ts hobject hchoices hnothing =>
    obtain ⟨path, hpath⟩ := settingsIn_configured hfile
    obtain ⟨base, hbase⟩ := Settings.ofObject_of_texts hobject path
    obtain ⟨settings, hover⟩ := Arguments.override_of_given hchoices base
    rcases Arguments.extensionsOver_cases a base with ⟨hgiven, -⟩ | ⟨-, herror⟩
    · exact absurd hgiven hnothing
    · rw [herror] at hover
      rw [hpath, hbase]
      exact conclude_settings hover rfl

/-- Arguments that come to settings or to wrong usage. -/
def Settled (limit : Nat) (a : Arguments) (s : σ) : Prop :=
  (∃ settings, settingsIn limit a s = .ok settings) ∨
    ∃ fault, settingsIn limit a s = .error (.usage fault)

theorem settled_of_usage {base : Except SettingsFault Settings}
    (h : settingsIn limit a s = conclude a base) (hbase : base >>= a.override = .error fault)
    (hfault : fault.isUsageFault = true) : Settled limit a s :=
  .inr ⟨.settings fault, h.trans (conclude_usage hbase hfault)⟩

theorem settled_of_ok {base : Except SettingsFault Settings}
    (h : settingsIn limit a s = conclude a base) (hbase : base >>= a.override = .ok settings) :
    Settled limit a s := by
  have hcheck := h.trans (conclude_ok hbase)
  cases hsettings : Arguments.check settings with
  | ok found =>
    rw [hsettings] at hcheck
    exact .inl ⟨found, hcheck⟩
  | error fault =>
    rw [hsettings] at hcheck
    exact .inr ⟨fault, hcheck⟩

/-- Where the file holds an object, or no file is named. -/
theorem Configured.settled_or_stray (hfile : Configured limit a s members) :
    Settled limit a s ∨ ∃ fault, Stray limit a s fault := by
  obtain ⟨path, hpath⟩ := settingsIn_configured hfile
  by_cases hobject : ∃ items, Setting.Holds members items
  · obtain ⟨items, hobject⟩ := hobject
    rcases Settings.texts_or_firstOther items with ⟨ts, rfl⟩ | ⟨item, hitem⟩
    · obtain ⟨base, hbase⟩ := Settings.ofObject_of_texts hobject path
      rw [hbase] at hpath
      by_cases hchoices : a.ChoicesGiven
      · obtain ⟨settings, hover⟩ := Arguments.override_of_given hchoices base
        rcases Arguments.extensionsOver_cases a base with ⟨-, extensions, hok, -⟩ | ⟨hnothing, -⟩
        · rw [hok] at hover
          exact .inl (settled_of_ok hpath hover)
        · exact .inr ⟨_, .onCommandLine hfile ts hobject hchoices hnothing⟩
      · obtain ⟨fault, hover, hfault⟩ := Arguments.override_of_not_given hchoices base
        exact .inl (settled_of_usage hpath hover hfault)
    · exact .inr ⟨_, .inFile hfile hobject hitem⟩
  · obtain ⟨fault, herror, hfault⟩ := Settings.ofObject_of_not_holds (not_exists.mp hobject) path
    rw [herror] at hpath
    exact .inl (settled_of_usage hpath rfl hfault)

theorem Documented.settled_or_stray (hfile : Documented a s document) :
    Settled limit a s ∨ ∃ fault, Stray limit a s fault := by
  cases hjson : Json.read limit document with
  | error fault =>
    cases fault with
    | tooDeep container => exact .inr ⟨_, .depth hfile hjson⟩
    | malformed | tooManyDigits => exact .inl (settled_of_usage (hfile.settingsIn_eq hjson) rfl rfl)
  | ok value =>
    obtain ⟨hconfig, hname, hread, htext⟩ := hfile
    cases value with
    | object members => exact (Configured.file hconfig hname hread htext hjson).settled_or_stray
    | null | bool | int | float | text | array =>
      have hcontent := settingsIn_file limit hconfig hname hread
      rw [Settings.ofContent, htext] at hcontent
      simp only [hjson] at hcontent
      exact .inl (settled_of_usage hcontent rfl rfl)

theorem settled_of_misnamed (hconfig : a.config = some (.value (c :: path)))
    (hname : ¬FileName.Fits (c :: path)) : Settled limit a s := by
  have hfile := settingsIn_ofFile (s := s) limit hconfig
  rw [Settings.ofFile] at hfile
  cases hcheck : FileName.check (c :: path) with
  | ok => exact absurd (FileName.check_eq_ok.mp hcheck) hname
  | error fault =>
    rw [hcheck] at hfile
    exact settled_of_usage hfile rfl rfl

theorem settled_of_unreadable (hconfig : a.config = some (.value (c :: path)))
    (hname : FileName.Fits (c :: path))
    (hread : ((FileStore.read (c :: path) : StateM σ _).run s).1 = .error error) :
    Settled limit a s := by
  have hfile := settingsIn_ofFile (s := s) limit hconfig
  obtain ⟨s', hrun⟩ : ∃ s', (FileStore.read (c :: path) : StateM σ _).run s = (.error error, s') :=
    ⟨_, Prod.ext hread rfl⟩
  rw [Settings.ofFile, FileName.check_eq_ok.mpr hname] at hfile
  simp only [StateT.run_bind, hrun] at hfile
  exact settled_of_usage hfile rfl rfl

theorem settled_or_stray (limit : Nat) (a : Arguments) (s : σ) :
    Settled limit a s ∨ ∃ fault, Stray limit a s fault := by
  by_cases hnamed : ∃ c path, a.config = some (.value (c :: path))
  · obtain ⟨c, path, hconfig⟩ := hnamed
    by_cases hname : FileName.Fits (c :: path)
    · cases hread : ((FileStore.read (c :: path) : StateM σ _).run s).1 with
      | error error => exact .inl (settled_of_unreadable hconfig hname hread)
      | ok content =>
        cases htext : Utf8.decode content with
        | error fault =>
          have hcontent := settingsIn_file limit hconfig hname hread
          rw [Settings.ofContent, htext] at hcontent
          exact .inl (settled_of_usage hcontent rfl rfl)
        | ok text => exact (Documented.file hconfig hname hread htext).settled_or_stray
    · exact .inl (settled_of_misnamed hconfig hname)
  · exact (Configured.none fun c path hconfig => hnamed ⟨c, path, hconfig⟩).settled_or_stray

/-- Arguments, and whatever there is in the file that they name, come to settings or to wrong usage
unless a fault strays, which is then how the session ends. Only documents that open more brackets than
may be open at once stray by their depth. -/
theorem settingsOf_usage_or_stray (limit : Nat) (a : Arguments) (s : σ) :
    ((∃ settings, settingsIn limit a s = .ok settings) ∨
        (∃ fault, settingsIn limit a s = .error (.usage fault)) ↔
      ∀ fault, ¬Stray limit a s fault) ∧
    (∀ fault, Stray limit a s fault → settingsIn limit a s = .error (.settings fault)) ∧
    (∀ document fault, Stray limit a s (.malformed document fault) →
      limit < Json.openings document) := by
  refine ⟨⟨?_, ?_⟩, fun fault h => h.settingsIn_eq, ?_⟩
  · rintro (⟨settings, hok⟩ | ⟨usage, herror⟩) fault hstray
    · cases hok.symm.trans hstray.settingsIn_eq
    · cases herror.symm.trans hstray.settingsIn_eq
  · intro hnone
    rcases settled_or_stray limit a s with hsettled | ⟨fault, hstray⟩
    · exact hsettled
    · exact absurd hstray (hnone fault)
  · intro document fault hstray
    cases hstray with
    | depth hfile hread => exact Json.openings_of_tooDeep hread

/-- An object with a number where an extension should be. -/
def numberDocument : Text := "\x7b\"extensions\":[1]\x7d"

/-- The package and the application are given, but the number is neither an extension nor wrong usage. -/
theorem settingsOf_number :
    let tree : FileTree := { files := [([Text.ofString "c.json"], Utf8.encode numberDocument)] }
    ∃ a,
      Arguments.ofWords false [Text.ofString "--config", "c.json", "-p", "x", "-a", "A.class"] = .ok a ∧
      settingsIn 988 a tree = .error (.settings (.extensionType "int")) := by
  intro tree
  let a : Arguments :=
    { config := some (.value "c.json"), package := some (.value "x"),
      application := some (.value "A.class") }
  have hwords :
      Arguments.ofWords false [Text.ofString "--config", "c.json", "-p", "x", "-a", "A.class"] = .ok a :=
    ofWords_of_toOption (by decide +kernel)
  have hfile : Configured 988 a tree [("extensions", .array [.int 1])] :=
    configured_of_document rfl rfl rfl
  have hobject : Setting.Holds [(Text.ofString "extensions", .array [.int 1])] [.int 1] :=
    ⟨by decide, rfl, ⟨.log, rfl⟩, ⟨.ordered, rfl⟩⟩
  have hitem : FirstOther [.int 1] (.int 1) := ⟨[], [], rfl, nofun⟩
  exact ⟨a, hwords, (Stray.inFile hfile hobject hitem).settingsIn_eq⟩

end CommandLine.Session

end Callsite
