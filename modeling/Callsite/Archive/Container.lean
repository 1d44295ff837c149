import Callsite.Text.Basic

/-!
# Containers

An archive is a container of members. How a container is laid out is left to a reader, of which
nothing is known but that it gives the members or raises an error. Errors of some kinds are faults
of the archive, depending on where they arise; all others go further.
-/

namespace Callsite.Container

/-- The kinds of errors that are told apart where errors are handled. -/
inductive ErrorKind
  | system
  | badContainer
  | unsupported
  | encoding
  | endOfFile
  | runtime
  | inflate
  | other (name : String)
  deriving DecidableEq, Repr

structure Error where
  kind : ErrorKind
  message : Text
  deriving DecidableEq, Repr

/-- A member of a container. What it holds is read when it is asked for. -/
structure Member where
  name : Text
  isDirectory : Except Error Bool
  content : Unit → Except Error (List UInt8)

/-- The members in the bytes of a container, in their order. -/
abbrev Reader := List UInt8 → Except Error (List Member)

/-- Where an error arises: when a container is opened, when a member is asked whether it is a
directory, or when its content is read. -/
inductive Site
  | opening
  | kind
  | content
  deriving DecidableEq, Repr

/-- The errors that are faults of the archive. What is unsupported is an error of the runtime, and
those are handled only when content is read. -/
def Site.handled : Site → List ErrorKind
  | .opening => [.system, .badContainer]
  | .kind => []
  | .content => [.system, .endOfFile, .runtime, .unsupported, .badContainer, .inflate]

end Callsite.Container
