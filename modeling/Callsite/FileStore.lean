import Callsite.Text.Utf8

/-!
# File stores

What a run needs of a file system, and the ways in which it can refuse. Names are handed over as
bytes: a text that has no such form, or that holds NUL, names no file at all.
-/

namespace Callsite

inductive SystemErrorCode
  | notFound
  | notADirectory
  | isADirectory
  | nameTooLong
  | other (number : Nat) (description : Text)
  deriving DecidableEq, Repr

namespace SystemErrorCode

def number : SystemErrorCode → Nat
  | .notFound => 2
  | .notADirectory => 20
  | .isADirectory => 21
  | .nameTooLong => 36
  | .other number _ => number

def description : SystemErrorCode → Text
  | .notFound => "No such file or directory"
  | .notADirectory => "Not a directory"
  | .isADirectory => "Is a directory"
  | .nameTooLong => "File name too long"
  | .other _ description => description

end SystemErrorCode

/-- A refusal, with the path as it was asked for. -/
structure SystemError where
  code : SystemErrorCode
  path : Text
  deriving DecidableEq, Repr

def SystemError.message (e : SystemError) : Text :=
  "[Errno " ++ Text.ofNat e.code.number ++ "] " ++ e.code.description ++ ": " ++ e.path.quoted

class FileStore (m : Type → Type) where
  read : Text → m (Except SystemError (List UInt8))
  /-- The names in a directory, and whether each is a regular file. -/
  list : Text → m (Except SystemError (List (Text × Bool)))
  /-- Creates or replaces a file. -/
  write : Text → List UInt8 → m (Except SystemError Unit)
  workingDirectory : m Text

/-- Why a text names no file. -/
inductive PathFault
  | nul
  | surrogates (run : Utf8.SurrogateRun)
  deriving DecidableEq, Repr

def PathFault.message : PathFault → Text
  | .nul => "embedded null byte"
  | .surrogates run => run.message

namespace FileName

/-- The surrogates that stand for single bytes of a name that is not UTF-8. -/
def isEscapedByte (c : CodePoint) : Bool := 0xDC80 ≤ c.val && c.val ≤ 0xDCFF

/-- Checks that a text can be handed over as the name of a file. -/
def check (t : Text) : Except PathFault Unit :=
  match Utf8.surrogateRun? isEscapedByte t with
  | some run => .error (.surrogates run)
  | none => if t.any (·.val = 0) then .error .nul else .ok ()

/-- The number of bytes of a name. -/
def byteLength (t : Text) : Nat :=
  t.foldl (fun n c => n + if isEscapedByte c then 1 else Utf8.size c) 0

end FileName

end Callsite
