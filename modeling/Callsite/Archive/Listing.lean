import Callsite.Archive.Reading
import Callsite.Run
import Callsite.Text.LowerCase

/-!
# Listing archives

The archives of a directory are its regular files with one of the given extensions, in the order of
their names. Capitals in the name of a file make no difference.
-/

namespace Callsite.Listing

def isArchive (extensions : List Text) (path : Path) : Bool :=
  extensions.contains (path.suffix.lower.stripLeading '.')

/-- The paths of the children of a directory, in the order of their names. -/
def children (directory : Path) (names : List (Text × Bool)) : List (Path × Bool) :=
  (names.mergeSort fun a b => !decide (b.1 < a.1)).map fun (name, isFile) =>
    (directory.child name, isFile)

/-- Keeps the archives and notes the paths that it skips. -/
def select (extensions : List Text) : List (Path × Bool) → Diagnostics → List Path × Diagnostics
  | [], d => ([], d)
  | (path, isFile) :: rest, d =>
    if isFile && isArchive extensions path then
      let (selected, d) := select extensions rest d
      (path :: selected, d)
    else select extensions rest (d.log .info ("Skipping file " ++ path.render))

def archives {m : Type → Type} [Monad m] [FileStore m] (directory : Path)
    (extensions : List Text) : Run m (Except ArchiveFault (List Path)) := do
  match ← Run.withFile directory.render FileStore.list with
  | .error error => return .error (.directory directory error)
  | .ok names => return .ok (← modifyGet (select extensions (children directory names)))

end Callsite.Listing
