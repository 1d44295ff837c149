import Callsite.Abort
import Callsite.Diagnostics

/-!
# Runs

A run works on a file store and keeps its diagnostics, also when it is aborted.
-/

namespace Callsite

abbrev Run (m : Type → Type) := ExceptT Abort (StateT Diagnostics m)

namespace Run

variable {m : Type → Type} [Monad m]

def log (level : Level) (message : Text) : Run m Unit := modify (·.log level message)

def notice (line : Text) : Run m Unit := modify (·.note (.notice line))

def record (failure : Failure) : Run m Unit := modify (·.record failure)

/-- A step that needs no file store. -/
def ofStep (step : Diagnostics → Except Abort α × Diagnostics) : Run m α :=
  ExceptT.mk (modifyGet step)

/-- Does what a file store offers for a path. A text that names no file ends the run. -/
def withFile [FileStore m] (path : Text) (action : Text → m α) : Run m α :=
  match FileName.check path with
  | .ok _ => liftM (action path)
  | .error fault => throw (.path fault)

end Run

end Callsite
