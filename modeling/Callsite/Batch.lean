import Callsite.Archive.Listing
import Callsite.Outcome
import Callsite.Settings

/-!
# Batches

A batch scans one archive, or all archives of a directory, and writes a report for each archive with
findings. All archives share the diagnostics; an archive that cannot be read does not stop the
others.
-/

namespace Callsite

/-- What the settings come to: the start of the owner signatures to look for, and where reports
go. Archives are read as containers of one kind. -/
structure Batch where
  settings : Settings
  containers : Container.Reader
  stem : Text
  output : Path

namespace Batch

variable {m : Type → Type} [Monad m] [FileStore m]

def pathOf : Json → Run m Path
  | .text t => return .ofText t
  | other => throw (.notAPath other.typeName)

def ofSettings (containers : Container.Reader) (settings : Settings) : Run m Batch := do
  match settings.package with
  | .text package =>
    let stem := normalizePackage package
    match settings.output with
    | .null =>
      Run.log .info "Output directory set to the current dir"
      return { settings, containers, stem, output := .ofText "." }
    | value => return { settings, containers, stem, output := ← pathOf value }
  | other => throw (.notAPackage other.typeName)

/-- The archives to scan. -/
def targets (b : Batch) : Run m (Except ArchiveFault (List Path)) := do
  if b.settings.application.isTruthy then return .ok [← pathOf b.settings.application]
  else Listing.archives (← pathOf b.settings.directory) b.settings.extensions

def scan (b : Batch) (tools : List Tool) (archive : Path) : Run m Outcome := do
  let reading : Reading ← liftM (Reading.ofPath b.containers archive : m Reading)
  Run.ofStep (Outcome.ofReading tools b.settings.mode archive.render reading)

/-- Writes the report of an archive with findings. -/
def report (b : Batch) (archive : Path) (outcome : Outcome) : Run m Outcome := do
  let path := Report.path b.output archive b.stem b.settings.format.label
  if ← Report.write outcome.results path b.settings.format then
    return { outcome with report := some path.render }
  else
    Run.notice ("Impossible to dump the results of " ++ archive.render)
    return outcome

def archive (b : Batch) (tools : List Tool) (archive : Path) : Run m Outcome := do
  let outcome ← b.scan tools archive
  match outcome.status with
  | .failed =>
    Run.log .error ("Failed to process file " ++ archive.render ++ ": " ++ outcome.error.getD [])
    return outcome
  | .matched =>
    Run.log .info ("The app " ++ archive.render ++ " contains calls to package " ++
      packageLabel b.stem)
    b.report archive outcome
  | .noMatch =>
    Run.log .info ("The app " ++ archive.render ++ " does not contain any call to package " ++
      packageLabel b.stem)
    return outcome

def archives (b : Batch) (tools : List Tool) : List Path → Run m (List Outcome)
  | [] => return []
  | path :: rest => do
    let outcome ← b.archive tools path
    return outcome :: (← archives b tools rest)

def run (b : Batch) (tools : List Tool) : Run m (List Outcome) := do
  match ← b.targets with
  | .error fault =>
    Run.record (fault.failure b.settings.directory.display)
    return []
  | .ok paths => b.archives tools paths

/-- How many outcomes have a status. -/
def count (outcomes : List Outcome) (status : Status) : Nat :=
  (outcomes.filter (·.status = status)).length

/-- The closing lines of the log. -/
def summarize (outcomes : List Outcome) (d : Diagnostics) : Diagnostics :=
  let total := Text.ofNat outcomes.length ++ " archives: " ++
    Text.ofNat (count outcomes .matched) ++ " matched, " ++
    Text.ofNat (count outcomes .noMatch) ++ " without match, " ++
    Text.ofNat (count outcomes .failed) ++ " failed; " ++ Text.ofNat d.size ++ " units skipped"
  d.byKind.foldl (fun d (kind, n) => d.log .info ("  " ++ kind ++ ": " ++ Text.ofNat n))
    (d.log .info total)

end Batch

end Callsite
