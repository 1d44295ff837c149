import Callsite.Finding

/-!
# Aggregates

What is kept of the findings of one archive. In ordered mode every finding is kept, grouped by
caller class, the groups in the order of their names and each group in the order of discovery. In
unordered mode equal findings are kept once.
-/

namespace Callsite

inductive Mode
  | ordered
  | unordered
  deriving DecidableEq, Repr

namespace Mode

def label : Mode → String
  | .ordered => "ordered"
  | .unordered => "unordered"

def ofText? (t : Text) : Option Mode :=
  if t = Text.ofString "ordered" then some .ordered
  else if t = Text.ofString "unordered" then some .unordered
  else none

end Mode

/-- The findings of one caller class. -/
structure Group where
  callerClass : Text
  findings : Array Finding
  deriving DecidableEq

/-- Puts a finding at the end of its group, or a new group in its place. -/
def Group.insert (f : Finding) : List Group → List Group
  | [] => [⟨f.callerClass, #[f]⟩]
  | g :: rest =>
    if f.callerClass = g.callerClass then { g with findings := g.findings.push f } :: rest
    else if f.callerClass < g.callerClass then ⟨f.callerClass, #[f]⟩ :: g :: rest
    else g :: insert f rest

inductive Aggregate
  | ordered (groups : List Group)
  | unordered (distinct : Array Finding)
  deriving DecidableEq

namespace Aggregate

def empty : Mode → Aggregate
  | .ordered => .ordered []
  | .unordered => .unordered #[]

def add : Aggregate → Finding → Aggregate
  | .ordered groups, f => .ordered (Group.insert f groups)
  | .unordered distinct, f => .unordered (if distinct.contains f then distinct else distinct.push f)

def extend (a : Aggregate) (findings : List Finding) : Aggregate := findings.foldl add a

def toList : Aggregate → List Finding
  | .ordered groups => groups.flatMap fun g => g.findings.toList
  | .unordered distinct => distinct.toList

def size : Aggregate → Nat
  | .ordered groups => groups.foldl (fun n g => n + g.findings.size) 0
  | .unordered distinct => distinct.size

/-- What is wrong with the name of a mode that there is not. -/
def unknownMode (name : Text) : Text := "unknown aggregation mode " ++ name.quoted

end Aggregate

end Callsite
