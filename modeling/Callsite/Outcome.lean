import Callsite.Archive.Reading

/-!
# Outcomes

What became of one archive. An archive that breaks off half-way has failed; its outcome still holds
the findings of the classes that came before.
-/

namespace Callsite

inductive Status
  | matched
  | noMatch
  | failed
  deriving DecidableEq, Repr

def Status.label : Status → String
  | .matched => "matched"
  | .noMatch => "no-match"
  | .failed => "failed"

structure Outcome where
  path : Text
  status : Status := .noMatch
  results : List Finding := []
  classes : Nat := 0
  failures : Nat := 0
  error : Option Text := none
  report : Option Text := none

namespace Outcome

/-- The line about an archive: its error, if it has one to show, or else its counts. -/
def line (status path : Text) (error : Option Text) (results : Nat) (classes failures : Int) :
    Text :=
  let counts := Text.ofNat results ++ " calls, " ++ Text.ofInt classes ++ " classes, " ++
    Text.ofInt failures ++ " failures"
  status ++ "\t" ++ path ++ "\t" ++
    match error with
    | some (c :: message) => c :: message
    | _ => counts

def render (o : Outcome) : Text :=
  line o.status.label o.path o.error o.results.length o.classes o.failures

/-- The outcome of an archive, given the state before and after its entries. -/
def ofProgress (path : Text) (before : Diagnostics) (p : Progress) :
    Option ArchiveFault → Outcome × Diagnostics
  | none =>
    ({ path
       status := if p.results.toList.isEmpty then .noMatch else .matched
       results := p.results.toList
       classes := p.decoded
       failures := p.diagnostics.size - before.size }, p.diagnostics)
  | some fault =>
    let d := p.diagnostics.record (fault.failure path)
    ({ path
       status := .failed
       results := p.results.toList
       failures := d.size - before.size
       error := some fault.message }, d)

/-- Scans what was read of an archive. -/
def ofReading (tools : List Tool) (mode : Mode) (path : Text) (reading : Reading)
    (d : Diagnostics) : Except Abort Outcome × Diagnostics :=
  let start : Progress := { results := .empty mode, diagnostics := d }
  let p := start.entries tools reading.entries
  match reading.ending with
  | .complete => let (outcome, d) := ofProgress path d p none; (.ok outcome, d)
  | .unreadable fault => let (outcome, d) := ofProgress path d p (some fault); (.ok outcome, d)
  | .aborted cause => (.error cause, p.diagnostics)

end Outcome

end Callsite
