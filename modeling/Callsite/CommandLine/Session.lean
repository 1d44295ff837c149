import Callsite.Batch
import Callsite.CommandLine.Arguments
import Callsite.CommandLine.Help

/-!
# Sessions

A session is one call of the program: what it prints, what it logs and how it ends. It takes its
platform as given.
-/

namespace Callsite.CommandLine

/-- What is not the same on all platforms. -/
structure Platform where
  description : Text
  /-- How many brackets may be open at once in a JSON document. -/
  depthLimit : Nat
  /-- Two minus signs attached to a switch are taken for a divider. -/
  dropsDivider : Bool
  containers : Container.Reader

/-- How a session ends. -/
inductive Exit
  | success
  | usage (fault : UsageFault)
  /-- Settings that are broken in a way not put down to usage. -/
  | settings (fault : SettingsFault)
  | abort (cause : Abort)

structure Session where
  exit : Exit
  /-- The lines of the standard output. -/
  output : List Text := []
  /-- The lines of the standard error output, without those about wrong usage. -/
  log : List Text := []

namespace Session

/-- The line about wrong usage. -/
def usageLine (fault : UsageFault) : Text :=
  (programName ++ ": error: " ++ fault.message).escapeSurrogates

/-- The line that shows a note; debug notes show only where they are asked for. -/
def noteLine? (debug : Bool) : Note → Option Text
  | .log level message =>
    if level = .debug && !debug then none
    else some ("[" ++ level.label ++ "] " ++ message).escapeSurrogates
  | .notice line => some line.escapeSurrogates

/-- What the arguments come to with the settings that they are laid over. -/
def conclude (a : Arguments) (base : Except SettingsFault Settings) : Except Exit Settings :=
  match base >>= a.override with
  | .error fault => .error (if fault.isUsageFault then .usage (.settings fault) else .settings fault)
  | .ok settings => (Arguments.check settings).mapError .usage

variable {m : Type → Type} [Monad m] [FileStore m]

def settingsOf (depthLimit : Nat) (a : Arguments) : m (Except Exit Settings) := do
  match a.config with
  | some (.value (c :: path)) => return conclude a (← Settings.ofFile depthLimit (c :: path))
  | _ => return conclude a (.ok {})

/-- The tools of a run. -/
def tools (settings : Settings) (stem : Text) : List Tool :=
  Tool.calls stem :: if settings.includeFields.isTruthy then [Tool.fields stem] else []

def batch (containers : Container.Reader) (settings : Settings) : Run m (List Outcome) := do
  Run.log .debug ("Logging initialized (debug=" ++ settings.debug.display ++ ")")
  let b ← Batch.ofSettings containers settings
  b.run (tools settings b.stem)

/-- The lines up to the first that has no form in UTF-8, and what is wrong with that one. -/
def printed : List Text → List Text × Option Utf8.SurrogateRun
  | [] => ([], none)
  | line :: rest =>
    match Utf8.surrogateRun? (fun _ => false) line with
    | some run => ([], some run)
    | none =>
      let (lines, fault) := printed rest
      (line :: lines, fault)

/-- The outcomes are printed before the closing lines are logged. -/
def ofSettings (containers : Container.Reader) (settings : Settings) : m Session := do
  let (result, d) ← (batch containers settings).run.run {}
  let log (d : Diagnostics) := d.notes.toList.filterMap (noteLine? settings.debug.isTruthy)
  match result with
  | .error cause => return { exit := .abort cause, log := log d }
  | .ok outcomes =>
    match printed (outcomes.map Outcome.render) with
    | (output, some run) => return { exit := .abort (.output run), output, log := log d }
    | (output, none) =>
      return { exit := .success, output, log := log (Batch.summarize outcomes d) }

def ofArguments (platform : Platform) (a : Arguments) : m Session := do
  if a.info then return { exit := .success, output := infoLines platform.description }
  else
    match ← settingsOf platform.depthLimit a with
    | .error exit => return { exit }
    | .ok settings => ofSettings platform.containers settings

def run (platform : Platform) (given : List Text) : m Session :=
  match Arguments.ofWords platform.dropsDivider given with
  | .error .help => return { exit := .success, output := helpLines }
  | .error (.usage fault) => return { exit := .usage fault }
  | .ok a => ofArguments platform a

end Session

end Callsite.CommandLine
