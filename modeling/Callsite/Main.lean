import Callsite.Archive.Zip
import Callsite.CommandLine.Session

/-!
# The program

Files are those of the system. The names in a directory are taken from the standard input, one a
line.
-/

namespace Callsite

def systemCode : IO.Error → SystemErrorCode
  | .noFileOrDirectory .. => .notFound
  | .inappropriateType _ 20 _ => .notADirectory
  | .inappropriateType _ 21 _ => .isADirectory
  | .invalidArgument _ 36 _ => .nameTooLong
  | e => .other 5 (Text.ofString (toString e))

/-- Does something with the file of a name, and tells of a refusal. -/
def onFile (path : Text) (action : String → IO α) : IO (Except SystemError α) := do
  try return .ok (← action (path.toString?.getD ""))
  catch e => return .error ⟨systemCode e, path⟩

/-- Whether a name is that of a regular file: of a directory nothing can be read. -/
def isRegular (path : Text) : IO (Except SystemError Bool) := do
  match ← onFile path fun name => do (← IO.FS.Handle.mk name .read).read 1 with
  | .ok _ => return .ok true
  | .error ⟨.isADirectory, _⟩ => return .ok false
  | .error e => return .error e

partial def inputNames (input : IO.FS.Stream) (names : List Text) : IO (List Text) := do
  let line ← input.getLine
  if line.isEmpty then return names.reverse
  else inputNames input ((Text.ofString line).filter (· ≠ newline) :: names)

instance : FileStore IO where
  read path := onFile path fun name => return (← IO.FS.readBinFile name).toList
  list path := do
    match ← isRegular path with
    | .error e => return .error e
    | .ok true => return .error ⟨.notADirectory, path⟩
    | .ok false =>
      let names ← inputNames (← IO.getStdin) []
      let children ← names.mapM fun name => do
        match ← isRegular ((Path.ofText path).child name).render with
        | .ok isFile => return (name, isFile)
        | .error _ => return (name, false)
      return .ok children
  write path content := onFile path (IO.FS.writeBinFile · ⟨content.toArray⟩)
  workingDirectory := return Text.ofString (toString (← IO.currentDir))

/-- The platform that the program assumes. -/
def platform : CommandLine.Platform where
  description := "any platform"
  depthLimit := 988
  dropsDivider := true
  containers := Zip.containers true

def lineOf (t : Text) : String := t.escapeSurrogates.toString?.getD ""

end Callsite

open Callsite in
def main (arguments : List String) : IO UInt32 := do
  let session : CommandLine.Session ←
    CommandLine.Session.run platform (arguments.map Text.ofString)
  for line in session.log do IO.eprintln (lineOf line)
  for line in session.output do IO.println (lineOf line)
  match session.exit with
  | .success => return 0
  | .usage fault =>
    for line in CommandLine.usageLines do IO.eprintln (lineOf line)
    IO.eprintln (lineOf (CommandLine.Session.usageLine fault))
    return 2
  | .settings fault =>
    IO.eprintln (lineOf fault.message)
    return 1
  | .abort cause =>
    IO.eprintln (lineOf cause.message)
    return 1
