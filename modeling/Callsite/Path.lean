import Callsite.Text.Basic

/-!
# Paths

Paths of names divided by slashes. Empty parts and parts that are a single dot vanish; a part of
two dots stays. Two slashes at the start are a root of their own, any other number counts as one.
-/

namespace Callsite

inductive PathRoot
  | relative
  | slash
  | doubleSlash
  deriving DecidableEq, Repr

structure Path where
  root : PathRoot
  parts : List Text
  deriving DecidableEq, Repr

def PathRoot.render : PathRoot → Text
  | .relative => ""
  | .slash => "/"
  | .doubleSlash => "//"

namespace Path

def rootOf (t : Text) : PathRoot :=
  match (t.takeWhile (· = CodePoint.ofChar '/')).length with
  | 0 => .relative
  | 2 => .doubleSlash
  | _ => .slash

def isPart (t : Text) : Bool := t ≠ [] && t ≠ Text.ofString "."

def ofText (t : Text) : Path :=
  { root := rootOf t, parts := (t.splitOn '/').filter isPart }

/-- The path as text; the empty path is a dot. -/
def render (p : Path) : Text :=
  match p.root.render ++ Text.join "/" p.parts with
  | [] => "."
  | t => t

/-- The last part, if there is one. -/
def name (p : Path) : Text := p.parts.getLast?.getD []

/-- The last dot of a name and what follows, unless the dot is the first or the last of it. -/
def suffixOf (name : Text) : Text :=
  let ending := (name.reverse.takeWhile (· ≠ CodePoint.ofChar '.')).reverse
  if ending.isEmpty || name.length ≤ ending.length + 1 then []
  else CodePoint.ofChar '.' :: ending

def suffix (p : Path) : Text := suffixOf p.name

/-- Goes on from a path; a path with a root starts anew. -/
def append (p : Path) (t : Text) : Path :=
  let next := ofText t
  if next.root = .relative then { p with parts := p.parts ++ next.parts } else next

/-- Goes one part further. -/
def child (p : Path) (name : Text) : Path := { p with parts := p.parts ++ [name] }

/-- Takes back the part before each part of two dots. -/
def collapse (parts : List Text) : List Text :=
  (parts.foldl (fun done part => if part = Text.ofString ".." then done.drop 1 else part :: done)
    []).reverse

/-- The absolute form of a path, from a working directory. -/
def absolute (p : Path) (workingDirectory : Text) : Text :=
  let parts := collapse p.parts
  match p.root with
  | .relative => Text.join "/" (workingDirectory :: parts)
  | root => root.render ++ Text.join "/" parts

end Path

end Callsite
