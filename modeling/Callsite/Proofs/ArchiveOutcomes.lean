import Callsite.Archive.Zip
import Callsite.Batch
import Callsite.Proofs.Accounts
import Callsite.Proofs.ClassFaults
import Callsite.Proofs.Runs

/-!
# The outcome of an archive

What becomes of an archive depends on the entries that were read of it and on the fault that broke it
off, if there was one, and not on what was recorded before. A report is written of an archive that
matched, and of no other.
-/

namespace Callsite

/-- How a reading ends that nothing aborts. -/
def Ending.ofFault? : Option ArchiveFault → Ending
  | none => .complete
  | some fault => .unreadable fault

@[simp] theorem Ending.ofFault?_ne_aborted : ofFault? fault? ≠ .aborted cause := by
  cases fault? with
  | none => nofun
  | some _ => nofun

@[simp] theorem Ending.ofFault?_inj : ofFault? a = ofFault? b ↔ a = b := by
  cases a <;> cases b <;> simp [ofFault?]

theorem Diagnostics.size_eq_of_append {d d' : Diagnostics}
    (h : d'.failures.toList = d.failures.toList ++ added) : d'.size = d.size + added.length := by
  have hlength := congrArg List.length h
  rwa [List.length_append, Array.length_toList, Array.length_toList] at hlength

namespace Outcome

/-- The failures of the entries, and behind them that of the archive. -/
def recorded (path : Text) (entries : List Entry) (fault? : Option ArchiveFault) : List Failure :=
  entries.flatMap Entry.failures ++ (fault?.map (ArchiveFault.failure path)).toList

def resultsOf (tools : List Tool) (mode : Mode) (entries : List Entry) : List Finding :=
  ((Aggregate.empty mode).extend (entries.flatMap (Entry.findings tools))).toList

/-- The outcome of an archive, whatever was recorded before. -/
def ofEntries (tools : List Tool) (mode : Mode) (path : Text) (entries : List Entry)
    (fault? : Option ArchiveFault) : Outcome where
  path
  status := if fault?.isSome then .failed
    else if (resultsOf tools mode entries).isEmpty then .noMatch else .matched
  results := resultsOf tools mode entries
  classes := if fault?.isSome then 0 else entries.countP Entry.isClass
  failures := (recorded path entries fault?).length
  error := fault?.map ArchiveFault.message

theorem ofReading_ends (tools : List Tool) (mode : Mode) (path : Text) (entries : List Entry)
    (fault? : Option ArchiveFault) (d : Diagnostics) :
    ∃ d', ofReading tools mode path ⟨entries, .ofFault? fault?⟩ d =
        (.ok (ofEntries tools mode path entries fault?), d') ∧
      d'.failures.toList = d.failures.toList ++ recorded path entries fault? := by
  have hresults := Progress.results_entries tools { results := .empty mode, diagnostics := d } entries
  have hdecoded := Progress.decoded_entries tools { results := .empty mode, diagnostics := d } entries
  have hfailures := Progress.failures_entries tools { results := .empty mode, diagnostics := d } entries
  simp only [Nat.zero_add] at hdecoded
  simp only [ofReading]
  generalize Progress.entries tools { results := .empty mode, diagnostics := d } entries = p at *
  cases fault? with
  | none =>
    have hsize := Diagnostics.size_eq_of_append hfailures
    refine ⟨p.diagnostics, ?_, by simpa [recorded] using hfailures⟩
    simp [Ending.ofFault?, ofProgress, ofEntries, resultsOf, recorded, hresults, hdecoded, hsize]
  | some fault =>
    have hrecord := p.diagnostics.failures_record (fault.failure path)
    rw [hfailures, List.append_assoc] at hrecord
    have hsize := Diagnostics.size_eq_of_append hrecord
    refine ⟨_, ?_, hrecord⟩
    simp [Ending.ofFault?, ofProgress, ofEntries, resultsOf, recorded, hresults, hsize]

/-- What an outcome tells of an archive of which so many classes were decoded, units skipped and
findings made, and that a fault broke off, if there is one. -/
structure Tells (mode : Mode) (archive : Text) (decoded : Nat) (skipped : List Failure)
    (found : List Finding) (fault? : Option ArchiveFault) (before : Diagnostics) (o : Outcome)
    (after : Diagnostics) : Prop where
  path : o.path = archive
  results : o.results = ((Aggregate.empty mode).extend found).toList
  recorded : after.failures.toList = before.failures.toList ++
    (skipped ++ (fault?.map fun fault =>
      { scope := "archive", unit := archive, kind := "ArchiveReadError",
        message := fault.message }).toList)
  units : ∀ f ∈ skipped, f.scope ≠ Text.ofString "archive"
  failures : after.size = before.size + o.failures
  failed : o.status = .failed ↔ fault?.isSome = true
  matched : o.status = .matched ↔ fault? = none ∧ o.results ≠ []
  noMatch : o.status = .noMatch ↔ fault? = none ∧ o.results = []
  error : o.error = fault?.map ArchiveFault.message
  classes : o.status ≠ .failed → o.classes = decoded

theorem scope_ne_of_mem_failures (h : f ∈ List.flatMap Entry.failures entries) :
    f.scope ≠ Text.ofString "archive" := by
  obtain ⟨e, -, hf⟩ := List.mem_flatMap.mp h
  rcases Entry.scoped_of_mem_failures hf with hscope | hscope
  · rw [hscope.1]
    decide
  · rw [hscope.1]
    decide

theorem failed_ofEntries (tools : List Tool) (mode : Mode) (path : Text) (entries : List Entry)
    (fault? : Option ArchiveFault) :
    (ofEntries tools mode path entries fault?).status = .failed ↔ fault?.isSome = true := by
  cases fault? with
  | none => by_cases hempty : resultsOf tools mode entries = [] <;> simp [ofEntries, hempty]
  | some fault => simp [ofEntries]

theorem tells_ofEntries (tools : List Tool) (mode : Mode) (path : Text) (entries : List Entry)
    (fault? : Option ArchiveFault) {d d' : Diagnostics}
    (h : d'.failures.toList = d.failures.toList ++ recorded path entries fault?) :
    Tells mode path (entries.countP Entry.isClass) (entries.flatMap Entry.failures)
      (entries.flatMap (Entry.findings tools)) fault? d
      (ofEntries tools mode path entries fault?) d' where
  path := rfl
  results := rfl
  recorded := h
  units _ := scope_ne_of_mem_failures
  failures := Diagnostics.size_eq_of_append h
  failed := failed_ofEntries tools mode path entries fault?
  matched := by
    cases fault? with
    | none => by_cases hempty : resultsOf tools mode entries = [] <;> simp [ofEntries, hempty]
    | some fault => simp [ofEntries]
  noMatch := by
    cases fault? with
    | none => by_cases hempty : resultsOf tools mode entries = [] <;> simp [ofEntries, hempty]
    | some fault => simp [ofEntries]
  error := rfl
  classes hstatus := by
    cases fault? with
    | none => rfl
    | some fault => exact absurd rfl hstatus

end Outcome

-- ---------------------------------------------------------------------------
-- Archives of a store
-- ---------------------------------------------------------------------------

section

variable {σ : Type} [FileStore (StateM σ)]

/-- What is read of the archive at a path when the store is in the given state. -/
def Reading.inStore (containers : Container.Reader) (path : Path) (s : σ) : Reading :=
  ((ofPath containers path : StateM σ Reading).run s).1

theorem Reading.inStore_traced (containers : Container.Reader) (path : Path) (t : Traced σ) :
    inStore containers path t = inStore containers path t.state := by
  simp only [inStore, ofPath]
  cases FileName.check path.render with
  | ok _ => rfl
  | error fault => rfl

theorem Reading.fits_of_inStore {path : Path} {entries : List Entry} {s : σ}
    (h : inStore containers path s = ⟨entries, .ofFault? fault?⟩) : FileName.Fits path.render := by
  rw [← FileName.check_eq_ok]
  cases hname : FileName.check path.render with
  | ok _ => rfl
  | error fault =>
    simp only [inStore, ofPath, hname] at h
    exact absurd (congrArg Reading.ending h).symm Ending.ofFault?_ne_aborted

variable [FileStore.PureReads σ]

theorem Reading.run_ofPath (containers : Container.Reader) (path : Path) (s : σ) :
    (ofPath containers path : StateM σ Reading).run s = (inStore containers path s, s) := by
  refine Prod.ext rfl ?_
  rw [ofPath]
  cases FileName.check path.render with
  | ok _ => exact FileStore.PureReads.read path.render s
  | error fault => rfl

namespace Batch

variable (b : Batch) {tools : List Tool} {archive : Path} {s : σ} {outcome : Outcome}

theorem exec_scan (tools : List Tool) (archive : Path) (d : Diagnostics) (s : σ) :
    (b.scan tools archive).exec d s =
      (Outcome.ofReading tools b.settings.mode archive.render
        (Reading.inStore b.containers archive s) d, s) := by
  have hread := Run.exec_liftM (Reading.ofPath b.containers archive : StateM σ Reading) d s
  rw [Reading.run_ofPath] at hread
  rw [scan, Run.exec_bind_ok hread, Run.exec_ofStep]

/-- Of an archive without a match nothing is written. -/
theorem exec_archive_quiet (h : Outcome.ofReading tools b.settings.mode archive.render
    (Reading.inStore b.containers archive s) d = (.ok outcome, d'))
    (hstatus : outcome.status ≠ .matched) :
    ∃ d'', (b.archive tools archive).exec d s = ((.ok outcome, d''), s) ∧
      d''.failures = d'.failures := by
  have hscan := b.exec_scan tools archive d s
  rw [h] at hscan
  rw [Batch.archive, Run.exec_bind_ok hscan]
  cases hs : outcome.status with
  | matched => exact absurd hs hstatus
  | noMatch => exact ⟨_, rfl, rfl⟩
  | failed => exact ⟨_, rfl, rfl⟩

theorem exec_archive_aborted (h : Outcome.ofReading tools b.settings.mode archive.render
    (Reading.inStore b.containers archive s) d = (.error cause, d')) :
    (b.archive tools archive).exec d s = ((.error cause, d'), s) := by
  have hscan := b.exec_scan tools archive d s
  rw [h] at hscan
  rw [Batch.archive, Run.exec_bind_error hscan]

/-- The place of the report of an archive. -/
def reportPath (archive : Path) : Path := Report.path b.output archive b.stem b.settings.format.label

/-- The store is asked once, whether it writes the report or not. -/
theorem exec_report (h : FileName.Fits (b.reportPath archive).render) (outcome : Outcome)
    (d : Diagnostics) (s : σ) :
    ∃ report d', (b.report archive outcome).exec d s = ((.ok { outcome with report }, d'),
        (FileStore.written (b.reportPath archive).render
          (Report.encode b.settings.format outcome.results) s).2) ∧
      d'.failures = d.failures := by
  obtain ⟨d', hwrite, hfailures⟩ :=
    Report.exec_write h outcome.results b.settings.format d s
  rw [Batch.report, ← reportPath, Run.exec_bind_ok hwrite]
  cases (FileStore.written (b.reportPath archive).render
    (Report.encode b.settings.format outcome.results) s).1 with
  | ok _ => exact ⟨some (b.reportPath archive).render, d', rfl, hfailures⟩
  | error _ => exact ⟨outcome.report, _, rfl, hfailures⟩

omit [FileStore.PureReads σ] in
theorem exec_report_misnamed (h : FileName.check (b.reportPath archive).render = .error fault)
    (outcome : Outcome) (d : Diagnostics) (s : σ) :
    (b.report archive outcome).exec d s = ((.error (.path fault), d), s) := by
  have hfile := Run.exec_withFile_error h
    (FileStore.write · (Report.encode b.settings.format outcome.results) : Text → StateM σ _) d s
  rw [Batch.report, ← reportPath, Run.exec_bind_error]
  rw [Report.write, Run.exec_bind_error]
  rw [Report.put, Run.exec_bind_error hfile]

/-- An archive with a match comes to what its report comes to. -/
theorem exec_archive_matched (h : Outcome.ofReading tools b.settings.mode archive.render
    (Reading.inStore b.containers archive s) d = (.ok outcome, d'))
    (hstatus : outcome.status = .matched) :
    ∃ d'', (b.archive tools archive).exec d s = (b.report archive outcome).exec d'' s ∧
      d''.failures = d'.failures := by
  have hscan := b.exec_scan tools archive d s
  rw [h] at hscan
  simp only [Batch.archive, Run.exec_bind_ok hscan, hstatus, Run.exec_bind_ok (Run.exec_log _ _ _ _)]
  exact ⟨_, rfl, rfl⟩

/-- What a batch does about an archive with a given outcome: only for a match is the store asked to
write, once, and anything else leaves it as it is. -/
structure Reports (tools : List Tool) (archive : Path) (before : Diagnostics) (t : Traced σ)
    (outcome : Outcome) (after : Diagnostics) : Prop where
  quiet : outcome.status ≠ .matched → ∃ d,
    (b.archive tools archive).exec before t = ((.ok outcome, d), t) ∧ d.failures = after.failures
  written : outcome.status = .matched → FileName.Fits (b.reportPath archive).render →
    ∃ report d t', (b.archive tools archive).exec before t = ((.ok { outcome with report }, d), t') ∧
      d.failures = after.failures ∧ t'.writes = t.writes ++
        [((b.reportPath archive).render, Report.encode b.settings.format outcome.results)]
  misnamed : outcome.status = .matched → ¬ FileName.Fits (b.reportPath archive).render →
    ∃ fault d, (b.archive tools archive).exec before t = ((.error (.path fault), d), t)

theorem reports_of_reading {t : Traced σ} (h : Outcome.ofReading tools b.settings.mode archive.render
    (Reading.inStore b.containers archive t.state) before = (.ok outcome, after)) :
    b.Reports tools archive before t outcome after := by
  rw [← Reading.inStore_traced] at h
  refine ⟨b.exec_archive_quiet h, fun hstatus hname => ?_, fun hstatus hname => ?_⟩
  · obtain ⟨d, harchive, hd⟩ := b.exec_archive_matched h hstatus
    obtain ⟨report, d', hreport, hd'⟩ := b.exec_report hname outcome d t
    exact ⟨report, d', _, harchive.trans hreport, hd'.trans hd, rfl⟩
  · obtain ⟨d, harchive, -⟩ := b.exec_archive_matched h hstatus
    cases hcheck : FileName.check (b.reportPath archive).render with
    | ok _ => exact absurd (FileName.check_eq_ok.mp hcheck) hname
    | error fault => exact ⟨fault, d, harchive.trans (b.exec_report_misnamed hcheck outcome d t)⟩

end Batch

/-- The outcome of an archive tells what its entries came to and how it ended, whatever was recorded
before, and a batch that finds the archive in its store writes a report of a match only. -/
theorem Outcome.ofReading_tells_and_reports (tools : List Tool) (entries : List Entry)
    (fault? : Option ArchiveFault) :
    ∃ decoded skipped found, EntryTally tools entries decoded skipped found ∧
      ∀ (mode : Mode) (archive : Text) (before : Diagnostics), ∃ outcome after,
        ofReading tools mode archive ⟨entries, .ofFault? fault?⟩ before = (.ok outcome, after) ∧
        Tells mode archive decoded skipped found fault? before outcome after ∧
        ∀ (b : Batch) (path : Path) (t : Traced σ), b.settings.mode = mode → path.render = archive →
          Reading.inStore b.containers path t.state = ⟨entries, .ofFault? fault?⟩ →
          b.Reports tools path before t outcome after := by
  refine ⟨_, _, _, entryTally tools entries, fun mode archive before => ?_⟩
  obtain ⟨after, hreading, hrecorded⟩ := ofReading_ends tools mode archive entries fault? before
  refine ⟨_, after, hreading, tells_ofEntries tools mode archive entries fault? hrecorded, ?_⟩
  rintro b path t rfl rfl hstore
  exact b.reports_of_reading (hstore ▸ hreading)

end

def Entry.selfCaller : Entry := { name := "A.class", data := ClassSource.selfCaller.bytes }

/-- A header that ends too early. -/
def ArchiveFault.truncated : ArchiveFault :=
  .entry (.ofText "a.jar") "B.class" { kind := .badContainer, message := "Truncated file header" }

def Batch.selfCaller : Batch where
  settings := {}
  containers := Zip.containers false
  stem := "LA"
  output := .ofText "."

/-- A class comes out of an archive before an entry that cannot be read, and the same class lies in a
file of its own. -/
theorem Outcome.ofReading_tells_and_reports_selfCaller :
    (∃ outcome after, ofReading [.calls "LA"] .ordered "a.jar"
        ⟨[.selfCaller], .ofFault? (some .truncated)⟩ {} = (.ok outcome, after) ∧
      outcome.status = .failed ∧ outcome.results = [⟨"A", "A.f()V", "A.f()V"⟩] ∧
      after.size = outcome.failures ∧ after.failures.toList.getLast? =
        some ⟨"archive", "a.jar", "ArchiveReadError",
          "cannot read B.class in a.jar: Truncated file header"⟩) ∧
    ∃ outcome d t', (Batch.selfCaller.archive [.calls "LA"] (.ofText "A.class")).exec {}
        ({ state := { files := [([Text.ofString "A.class"], ClassSource.selfCaller.bytes)] } } :
          Traced FileTree) = ((.ok outcome, d), t') ∧
      t'.writes = [(Text.ofString "A.class_A.log", Report.encode .log [⟨"A", "A.f()V", "A.f()V"⟩])] := by
  constructor
  · obtain ⟨decoded, skipped, found, -, h⟩ := ofReading_tells_and_reports (σ := FileTree)
      [.calls "LA"] [.selfCaller] (some .truncated)
    obtain ⟨outcome, after, hreading, htells, -⟩ := h .ordered "a.jar" {}
    have hresults : ((ofReading [.calls "LA"] .ordered "a.jar" ⟨[.selfCaller],
        .ofFault? (some .truncated)⟩ {}).1.toOption.map Outcome.results) =
          some [⟨"A", "A.f()V", "A.f()V"⟩] := by decide +kernel
    rw [hreading] at hresults
    refine ⟨outcome, after, hreading, htells.failed.mpr rfl, Option.some.inj hresults,
      htells.failures.trans (Nat.zero_add _), ?_⟩
    rw [htells.recorded, ← List.append_assoc]
    exact List.getLast?_concat
  · obtain ⟨decoded, skipped, found, -, h⟩ := ofReading_tells_and_reports (σ := FileTree)
      [.calls "LA"] [.selfCaller] none
    obtain ⟨outcome, after, hreading, htells, hreports⟩ := h .ordered "A.class" {}
    have hresults : ((ofReading [.calls "LA"] .ordered "A.class" ⟨[.selfCaller],
        .ofFault? none⟩ {}).1.toOption.map Outcome.results) =
          some [⟨"A", "A.f()V", "A.f()V"⟩] := by decide +kernel
    rw [hreading] at hresults
    have hresults := Option.some.inj hresults
    have hmatched := htells.matched.mpr ⟨rfl, by simp [hresults]⟩
    have hreports := hreports .selfCaller (.ofText "A.class")
      { state := { files := [([Text.ofString "A.class"], ClassSource.selfCaller.bytes)] } } rfl rfl rfl
    obtain ⟨report, d, t', hexec, -, hwrites⟩ := hreports.written hmatched (by decide)
    exact ⟨_, d, t', hexec, hresults ▸ hwrites⟩

end Callsite
