import Callsite.Archive.Container
import Callsite.FileStore

/-!
# Aborts

A fault of a unit is recorded and the run goes on. The faults here belong to no unit: they end the
run as a whole.
-/

namespace Callsite

inductive Abort
  /-- A path that names no file. -/
  | path (fault : PathFault)
  /-- A path that is not a text. -/
  | notAPath (typeName : String)
  /-- A package that is not a text. -/
  | notAPackage (typeName : String)
  | archive (error : Container.Error)
  | reportFormat (name : Text)
  /-- A line for the standard output that has no form in UTF-8. -/
  | output (run : Utf8.SurrogateRun)

namespace Abort

def message : Abort → Text
  | .path fault => fault.message
  | .notAPath typeName => "expected str, bytes or os.PathLike object, not " ++ typeName
  | .notAPackage typeName => "'" ++ typeName ++ "' object has no attribute 'replace'"
  | .archive error => error.message
  | .reportFormat name => "unknown report format " ++ name.quoted
  | .output run => run.message

end Abort

end Callsite
