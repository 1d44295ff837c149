import Callsite.ClassFile.Fault
import Callsite.Text.Blank

/-!
# Diagnostics

The record of a run: every unit that had to be skipped, and the notes made on the way, both in the
order in which they arose. Recording a failure never stops the run.
-/

namespace Callsite

/-- A unit (an archive, a class or a method) that could not be decoded. -/
structure Failure where
  scope : Text
  unit : Text
  kind : Text
  message : Text := []
  deriving DecidableEq, Repr

namespace Failure

def archiveScope : Text := "archive"
def classScope : Text := "class"
def methodScope : Text := "method"

def ofFault (scope unit : Text) (fault : Fault) : Failure :=
  { scope, unit, kind := fault.kind.label, message := fault.message }

def render (f : Failure) : Text :=
  (f.scope ++ " " ++ f.unit ++ ": " ++ f.kind ++ " " ++ f.message).trimEnd

end Failure

inductive Level
  | debug
  | info
  | warning
  | error
  deriving DecidableEq, Repr

def Level.label : Level → String
  | .debug => "DEBUG"
  | .info => "INFO"
  | .warning => "WARNING"
  | .error => "ERROR"

/-- A line for the user: from the log at some level, or printed whatever the level. -/
inductive Note
  | log (level : Level) (message : Text)
  | notice (line : Text)
  deriving DecidableEq, Repr

structure Diagnostics where
  failures : Array Failure := #[]
  notes : Array Note := #[]

namespace Diagnostics

def note (d : Diagnostics) (n : Note) : Diagnostics := { d with notes := d.notes.push n }

def log (d : Diagnostics) (level : Level) (message : Text) : Diagnostics :=
  d.note (.log level message)

def record (d : Diagnostics) (f : Failure) : Diagnostics :=
  { d with failures := d.failures.push f }.log .warning ("Skipping " ++ f.render)

def size (d : Diagnostics) : Nat := d.failures.size

/-- Scope, unit and kind of every failure. -/
def triples (d : Diagnostics) : List (Text × Text × Text) :=
  d.failures.toList.map fun f => (f.scope, f.unit, f.kind)

/-- How often each kind of failure occurred, in the order of the kinds. -/
def byKind (d : Diagnostics) : List (Text × Nat) :=
  let kinds := d.failures.toList.map Failure.kind
  (kinds.eraseDups.mergeSort fun a b => !decide (b < a)).map fun kind => (kind, kinds.count kind)

end Diagnostics

end Callsite
