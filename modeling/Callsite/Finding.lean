import Callsite.ClassFile.ClassFile

/-!
# Findings

A finding is a place where a method of a scanned class uses a watched member. It holds texts only,
so that the decoded class need not be kept.
-/

namespace Callsite

structure Finding where
  callerClass : Text
  caller : Text
  callee : Text
  deriving DecidableEq, Repr

namespace Finding

/-- The use of a member by a method of the class with the given dotted name. -/
def ofReference (owner : Text) (m : Method) (reference : MemberReference) : Finding :=
  { callerClass := owner, caller := m.identity owner, callee := reference.render }

def render (f : Finding) : Text := f.caller ++ " -> " ++ f.callee

end Finding

/-- A tool looks at the decoded instructions of one method, given the dotted name of its class. -/
structure Tool where
  name : String
  find : Text → Method → List Instruction → List Finding

namespace Tool

/-- Reports references that `select` picks out and whose owner signature starts with `stem`. -/
def references (select : Instruction → Option MemberReference) (stem owner : Text) (m : Method)
    (instructions : List Instruction) : List Finding :=
  (instructions.filterMap select).filterMap fun reference =>
    if reference.ownerSignature.startsWith stem then some (.ofReference owner m reference)
    else none

/-- Calls of members whose owner signature starts with `stem`. -/
def calls (stem : Text) : Tool := { name := "calls", find := references Instruction.call? stem }

/-- Reads and writes of fields whose owner signature starts with `stem`. -/
def fields (stem : Text) : Tool := { name := "fields", find := references Instruction.field? stem }

end Tool

end Callsite
