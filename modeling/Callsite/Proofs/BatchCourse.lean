import Mathlib.Data.List.Forall2
import Mathlib.Logic.Relation
import Callsite.Proofs.ArchiveOutcomes

/-!
# The course of a batch

A batch takes one archive after the other. Each adds its outcome and its failures and may leave a
report in the store; only an archive that is refused breaks the course off. What an outcome says comes
from the reading of its archive alone.
-/

namespace Callsite

variable {σ : Type} [FileStore (StateM σ)]

/-- A state comes from another by writing one of the files. -/
def FileStore.Writes (files : List Path) (s t : σ) : Prop :=
  ∃ file ∈ files, ∃ content, (FileStore.written file.render content s).2 = t

theorem FileStore.Writes.mono {s t : σ} (hsub : ∀ file ∈ files, file ∈ more) (h : Writes files s t) :
    Writes more s t := by
  obtain ⟨file, hfile, content, hwritten⟩ := h
  exact ⟨file, hsub file hfile, content, hwritten⟩

/-- A reading is aborted or comes to an end. -/
theorem Reading.aborted_or_ends (reading : Reading) :
    (∃ entries cause, reading = ⟨entries, .aborted cause⟩) ∨
      ∃ entries fault?, reading = ⟨entries, .ofFault? fault?⟩ := by
  obtain ⟨entries, ending⟩ := reading
  cases ending with
  | complete => exact .inr ⟨entries, none, rfl⟩
  | unreadable fault => exact .inr ⟨entries, some fault, rfl⟩
  | aborted cause => exact .inl ⟨entries, cause, rfl⟩

namespace Batch

variable (b : Batch)

/-- The state that an archive leaves: for a match the store was asked to write a report. -/
def leaves (path : Path) (outcome : Outcome) (s : σ) : σ :=
  if outcome.status = .matched then
    (FileStore.written (b.reportPath path).render
      (Report.encode b.settings.format outcome.results) s).2
  else s

section

variable [FileStore.PureReads σ] {path : Path} {s : σ}

theorem exec_archive_ends (tools : List Tool) (hname : FileName.Fits (b.reportPath path).render)
    (hreading : Reading.inStore b.containers path s = ⟨entries, .ofFault? fault?⟩) (d : Diagnostics) :
    ∃ report d', (b.archive tools path).exec d s =
        ((.ok { Outcome.ofEntries tools b.settings.mode path.render entries fault? with report }, d'),
          b.leaves path (.ofEntries tools b.settings.mode path.render entries fault?) s) ∧
      d'.failures.toList = d.failures.toList ++ Outcome.recorded path.render entries fault? := by
  obtain ⟨d', hends, hrecorded⟩ :=
    Outcome.ofReading_ends tools b.settings.mode path.render entries fault? d
  rw [← hreading] at hends
  rw [leaves]
  split
  next hstatus =>
    obtain ⟨d₁, harchive, hd₁⟩ := b.exec_archive_matched hends hstatus
    obtain ⟨report, d₂, hreport, hd₂⟩ := b.exec_report hname _ d₁ s
    exact ⟨report, d₂, harchive.trans hreport, by rw [hd₂, hd₁, hrecorded]⟩
  next hstatus =>
    obtain ⟨d₁, harchive, hd₁⟩ := b.exec_archive_quiet hends hstatus
    exact ⟨none, d₁, harchive, by rw [hd₁, hrecorded]⟩

theorem exec_archive_stops (tools : List Tool)
    (hreading : Reading.inStore b.containers path s = ⟨entries, .aborted cause⟩) (d : Diagnostics) :
    ∃ d', (b.archive tools path).exec d s = ((.error cause, d'), s) :=
  ⟨_, b.exec_archive_aborted (by rw [hreading]; rfl)⟩

end

/-- A course over archives of which none is refused: their outcomes, the failures that they add, and
the states before and after. -/
inductive Course (tools : List Tool) :
    List Path → σ → List Outcome → List Failure → σ → Prop
  | nil {s : σ} : Course tools [] s [] [] s
  | cons {s : σ} (reading : Reading.inStore b.containers path s = ⟨entries, .ofFault? fault?⟩)
      (report : Option Text) (rest : Course tools paths
        (b.leaves path (.ofEntries tools b.settings.mode path.render entries fault?) s)
        outcomes failures t) :
      Course tools (path :: paths) s
        ({ Outcome.ofEntries tools b.settings.mode path.render entries fault? with report } :: outcomes)
        (Outcome.recorded path.render entries fault? ++ failures) t

/-- The archives before the one that is refused have a course; the run ends where it is. -/
def Stops (tools : List Tool) (paths : List Path) (s : σ) (cause : Abort) (t : σ) : Prop :=
  ∃ before path after outcomes failures entries, paths = before ++ path :: after ∧
    b.Course tools before s outcomes failures t ∧
    Reading.inStore b.containers path t = ⟨entries, .aborted cause⟩

variable {b}

theorem Stops.cons {s : σ} (reading : Reading.inStore b.containers path s = ⟨entries, .ofFault? fault?⟩)
    (h : b.Stops tools paths
      (b.leaves path (.ofEntries tools b.settings.mode path.render entries fault?) s) cause t) :
    b.Stops tools (path :: paths) s cause t := by
  obtain ⟨before, stopped, after, outcomes, failures, read, rfl, hcourse, hstopped⟩ := h
  exact ⟨path :: before, stopped, after, _, _, read, rfl, .cons reading none hcourse, hstopped⟩

variable [FileStore.PureReads σ]

/-- Archives are taken in their order, up to the first that is refused. -/
theorem exec_archives (tools : List Tool) {paths : List Path}
    (hnames : ∀ path ∈ paths, FileName.Fits (b.reportPath path).render) (d : Diagnostics) (s : σ) :
    (∃ outcomes failures d' t, (b.archives tools paths).exec d s = ((.ok outcomes, d'), t) ∧
      d'.failures.toList = d.failures.toList ++ failures ∧ b.Course tools paths s outcomes failures t) ∨
    ∃ cause d' t, (b.archives tools paths).exec d s = ((.error cause, d'), t) ∧
      b.Stops tools paths s cause t := by
  -- Each archive hands on its own record and state, so both are left open.
  induction paths generalizing d s with
  | nil => exact .inl ⟨[], [], d, s, rfl, by simp, .nil⟩
  | cons path paths ih =>
    obtain ⟨hname, hnames⟩ := List.forall_mem_cons.mp hnames
    rcases (Reading.inStore b.containers path s).aborted_or_ends with
      ⟨entries, cause, hreading⟩ | ⟨entries, fault?, hreading⟩
    · obtain ⟨d', hexec⟩ := b.exec_archive_stops tools hreading d
      refine .inr ⟨cause, d', s, ?_, [], path, paths, [], [], entries, rfl, .nil, hreading⟩
      rw [archives, Run.exec_bind_error hexec]
    · obtain ⟨report, d₁, hexec, hd₁⟩ := b.exec_archive_ends tools hname hreading d
      rw [archives, Run.exec_bind_ok hexec]
      rcases ih hnames d₁ _ with
        ⟨outcomes, failures, d₂, t, hrest, hd₂, hcourse⟩ | ⟨cause, d₂, t, hrest, hstops⟩
      · rw [Run.exec_bind_ok hrest]
        refine .inl ⟨_, _, d₂, t, rfl, ?_, .cons hreading report hcourse⟩
        rw [hd₂, hd₁, List.append_assoc]
      · rw [Run.exec_bind_error hrest]
        exact .inr ⟨cause, d₂, t, rfl, hstops.cons hreading⟩

end Batch

-- ---------------------------------------------------------------------------
-- What a course comes to
-- ---------------------------------------------------------------------------

namespace Outcome

def unreported (o : Outcome) : Outcome := { o with report := none }

/-- The failure that is recorded of an archive that failed. -/
def record (o : Outcome) : Failure where
  scope := "archive"
  unit := o.path
  kind := "ArchiveReadError"
  message := o.error.getD []

end Outcome

namespace Batch

variable {b : Batch}

theorem leaves_reached (hfile : b.reportPath path ∈ files) (outcome : Outcome) (s : σ) :
    Relation.ReflTransGen (FileStore.Writes files) s (b.leaves path outcome s) := by
  rw [leaves]
  split
  next => exact .single ⟨_, hfile, _, rfl⟩
  next => exact .refl

/-- An outcome is that of the reading of its archive in some state on the way, and the failures of the
archive are among those of the course. -/
def Turn (b : Batch) (tools : List Tool) (files : List Path) (s : σ) (failures : List Failure)
    (path : Path) (o : Outcome) : Prop :=
  ∃ t entries fault?, Relation.ReflTransGen (FileStore.Writes files) s t ∧
    Reading.inStore b.containers path t = ⟨entries, .ofFault? fault?⟩ ∧
    o.unreported = .ofEntries tools b.settings.mode path.render entries fault? ∧
    ∀ f ∈ Outcome.recorded path.render entries fault?, f ∈ failures

theorem Course.turns {s t : σ} (h : b.Course tools paths s outcomes failures t)
    (hfiles : ∀ path ∈ paths, b.reportPath path ∈ files) :
    List.Forall₂ (b.Turn tools files s failures) paths outcomes := by
  induction h with
  | nil => exact .nil
  | cons reading report rest ih =>
    obtain ⟨hfile, hfiles⟩ := List.forall_mem_cons.mp hfiles
    refine .cons ⟨_, _, _, .refl, reading, rfl, fun f => List.mem_append_left _⟩ ((ih hfiles).imp ?_)
    rintro path o ⟨t, entries, fault?, hreached, hreading, ho, hrecorded⟩
    exact ⟨t, entries, fault?, (leaves_reached hfile _ _).trans hreached, hreading, ho,
      fun f hf => List.mem_append_right _ (hrecorded f hf)⟩

theorem Course.reached {s t : σ} (h : b.Course tools paths s outcomes failures t)
    (hfiles : ∀ path ∈ paths, b.reportPath path ∈ files) :
    Relation.ReflTransGen (FileStore.Writes files) s t := by
  induction h with
  | nil => exact .refl
  | cons reading report rest ih =>
    obtain ⟨hfile, hfiles⟩ := List.forall_mem_cons.mp hfiles
    exact (leaves_reached hfile _ _).trans (ih hfiles)

theorem Course.length_failures {s t : σ} (h : b.Course tools paths s outcomes failures t) :
    outcomes.foldr (fun o n => o.failures + n) 0 = failures.length := by
  induction h with
  | nil => rfl
  | cons reading report rest ih =>
    rw [List.foldr_cons, ih, List.length_append]
    rfl

theorem count_total (outcomes : List Outcome) :
    count outcomes .matched + count outcomes .noMatch + count outcomes .failed = outcomes.length := by
  induction outcomes with
  | nil => rfl
  | cons o outcomes ih =>
    simp only [count] at ih ⊢
    cases h : o.status with
    | matched => grind
    | noMatch => grind
    | failed => grind

end Batch

-- ---------------------------------------------------------------------------
-- Settings and targets
-- ---------------------------------------------------------------------------

/-- Settings that name a package and a directory for the reports, the working directory if they are
silent. -/
structure Settings.Names (settings : Settings) (package output : Text) : Prop where
  fits_package : FileName.Fits package
  fits_output : FileName.Fits output
  package : settings.package = .text package
  output : settings.output = .text output ∨ settings.output = .null ∧ output = Text.ofString "."

def Settings.batch (settings : Settings) (containers : Container.Reader) (package output : Text) :
    Batch where
  settings
  containers
  stem := normalizePackage package
  output := .ofText output

namespace Listing

/-- The regular files with one of the extensions, among the children of a directory. -/
def selected (directory : Path) (extensions : List Text) (names : List (Text × Bool)) : List Path :=
  ((children directory names).filter fun c => c.2 && isArchive extensions c.1).map Prod.fst

theorem select_eq (extensions : List Text) (children : List (Path × Bool)) (d : Diagnostics) :
    ∃ d', select extensions children d =
        ((children.filter fun c => c.2 && isArchive extensions c.1).map Prod.fst, d') ∧
      d'.failures = d.failures := by
  induction children generalizing d with
  | nil => exact ⟨d, rfl, rfl⟩
  | cons child children ih =>
    obtain ⟨path, isFile⟩ := child
    rw [select]
    split
    next hselected =>
      obtain ⟨d', hd', hfailures⟩ := ih d
      exact ⟨d', by simp [hd', hselected], hfailures⟩
    next hskipped =>
      obtain ⟨d', hd', hfailures⟩ := ih (d.log .info ("Skipping file " ++ path.render))
      exact ⟨d', by simp [hd', hskipped], hfailures⟩

variable [FileStore.PureReads σ] {directory : Path} {s : σ}

theorem exec_withFile_list (hname : FileName.Fits directory.render) (d : Diagnostics) (s : σ) :
    (Run.withFile directory.render FileStore.list).exec d s =
      ((.ok ((FileStore.list directory.render : StateM σ _).run s).1, d), s) := by
  have hfile := Run.exec_withFile (FileName.check_eq_ok.mpr hname)
    (FileStore.list : Text → StateM σ _) d s
  rwa [FileStore.PureReads.list] at hfile

theorem exec_archives (hname : FileName.Fits directory.render)
    (hlist : ((FileStore.list directory.render : StateM σ _).run s).1 = .ok names)
    (extensions : List Text) (d : Diagnostics) :
    ∃ d', (archives directory extensions).exec d s =
      ((.ok (.ok (selected directory extensions names)), d'), s) ∧ d'.failures = d.failures := by
  have hfile := exec_withFile_list hname d s
  rw [hlist] at hfile
  obtain ⟨d', hselect, hfailures⟩ := select_eq extensions (children directory names) d
  have hmodify := Run.exec_modifyGet (select extensions (children directory names)) d s
  rw [hselect] at hmodify
  refine ⟨d', ?_, hfailures⟩
  rw [archives, Run.exec_bind_ok hfile]
  exact Run.exec_bind_ok hmodify _

/-- What is listed does not depend on what was recorded before, and records no failure. -/
theorem exec_archives_steady (directory : Path) (extensions : List Text) (s : σ) :
    ∃ result, ∀ d, ∃ d', (archives directory extensions : Run (StateM σ) _).exec d s =
      ((result, d'), s) ∧ d'.failures = d.failures := by
  cases hname : FileName.check directory.render with
  | error fault =>
    refine ⟨.error (.path fault), fun d => ⟨d, ?_, rfl⟩⟩
    rw [archives, Run.exec_bind_error (Run.exec_withFile_error hname _ d s)]
  | ok _ =>
    have hname := FileName.check_eq_ok.mp hname
    cases hlist : ((FileStore.list directory.render : StateM σ _).run s).1 with
    | ok names => exact ⟨_, exec_archives hname hlist extensions⟩
    | error error =>
      refine ⟨.ok (.error (.directory directory error)), fun d => ⟨d, ?_, rfl⟩⟩
      have hfile := exec_withFile_list hname d s
      rw [hlist] at hfile
      rw [archives, Run.exec_bind_ok hfile]
      rfl

end Listing

namespace Batch

def analysis {m : Type → Type} [Monad m] [FileStore m] (containers : Container.Reader)
    (settings : Settings) (tools : List Tool) : Run m (List Outcome) := do
  (← ofSettings containers settings).run tools

variable {containers : Container.Reader} {settings : Settings} {package output : Text}

omit [FileStore (StateM σ)] in
theorem exec_ofSettings (h : settings.Names package output) (d : Diagnostics) (s : σ) :
    ∃ d', (ofSettings containers settings).exec d s =
        ((.ok (settings.batch containers package output), d'), s) ∧
      d'.failures = d.failures := by
  rw [ofSettings, h.package]
  rcases h.output with houtput | ⟨houtput, rfl⟩
  · rw [houtput]
    exact ⟨d, rfl, rfl⟩
  · rw [houtput]
    exact ⟨_, rfl, rfl⟩

theorem fits_reportPath (h : settings.Names package output) (hpath : FileName.Fits path.render) :
    FileName.Fits ((settings.batch containers package output).reportPath path).render :=
  Report.fits_path (Path.fits_render_ofText h.fits_output) hpath
    (fits_normalizePackage h.fits_package) settings.format

/-- The archives of a batch, from the listing of a directory in the given state or from the settings
alone. -/
def targetsIn (b : Batch) (s : σ) : Except Abort (Except ArchiveFault (List Path)) :=
  ((b.targets : Run (StateM σ) _).exec {} s).1.1

variable [FileStore.PureReads σ]

theorem exec_targets (b : Batch) (d : Diagnostics) (s : σ) :
    ∃ d', b.targets.exec d s = ((b.targetsIn s, d'), s) ∧ d'.failures = d.failures := by
  -- Only the notes depend on what was recorded before, so the result is that of an empty record.
  have hsteady : ∃ result, ∀ d, ∃ d', b.targets.exec d s = ((result, d'), s) ∧
      d'.failures = d.failures := by
    rw [targets]
    split
    next =>
      cases b.settings.application with
      | text t => exact ⟨.ok (.ok [.ofText t]), fun d => ⟨d, rfl, rfl⟩⟩
      | _ => exact ⟨.error (.notAPath _), fun d => ⟨d, rfl, rfl⟩⟩
    next =>
      cases b.settings.directory with
      | text t => exact Listing.exec_archives_steady (.ofText t) b.settings.extensions s
      | _ => exact ⟨.error (.notAPath _), fun d => ⟨d, rfl, rfl⟩⟩
  obtain ⟨result, hresult⟩ := hsteady
  obtain ⟨_, hempty, -⟩ := hresult {}
  rw [targetsIn, hempty]
  exact hresult d

theorem targetsIn_directory {s : σ} (b : Batch) (happlication : b.settings.application.isTruthy = false)
    (hdirectory : b.settings.directory = .text directory) (hfits : FileName.Fits directory)
    (hlist : ((FileStore.list (Path.ofText directory).render : StateM σ _).run s).1 = .ok names) :
    b.targetsIn s = .ok (.ok (Listing.selected (.ofText directory) b.settings.extensions names)) := by
  obtain ⟨d, hexec, -⟩ :=
    Listing.exec_archives (Path.fits_render_ofText hfits) hlist b.settings.extensions {}
  rw [targetsIn, targets, happlication, hdirectory]
  exact congrArg (·.1.1) hexec

theorem exec_analysis {s : σ} (h : settings.Names package output)
    (htargets : (settings.batch containers package output).targetsIn s = .ok (.ok paths))
    (tools : List Tool) :
    ∃ d, (analysis containers settings tools).exec {} s =
        ((settings.batch containers package output).archives tools paths).exec d s ∧
      d.failures = #[] := by
  obtain ⟨d, hsettings, hd⟩ := exec_ofSettings h {} s
  obtain ⟨d', hexec, hd'⟩ := (settings.batch containers package output).exec_targets d s
  rw [htargets] at hexec
  refine ⟨d', ?_, hd'.trans hd⟩
  rw [analysis, Run.exec_bind_ok hsettings, run, Run.exec_bind_ok hexec]

end Batch

end Callsite
