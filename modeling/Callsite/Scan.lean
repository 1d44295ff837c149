import Callsite.Aggregate
import Callsite.Diagnostics

/-!
# Scanning

Classes and methods are decoded each at its own boundary: a class that cannot be decoded is skipped
as a whole, a method that cannot be decoded loses only its own findings, and either way the scan
goes on with the next unit.
-/

namespace Callsite

/-- A class as it comes out of an archive, with a note about how it was read. -/
structure Entry where
  name : Text
  data : List UInt8
  reading : Option Text := none

/-- The class that an entry holds, or the failure that skips it. -/
def decodeEntry (name : Text) (data : List UInt8) : Except Failure ClassFile :=
  (ClassFile.decode data).mapError (Failure.ofFault Failure.classScope name)

/-- The instructions of a method, or the failure that skips it. -/
def decodeMethod (file : ClassFile) (m : Method) : Except Failure (List Instruction) :=
  (m.instructions file.pool).mapError
    (Failure.ofFault Failure.methodScope (m.identity file.dottedName))

namespace Scan

/-- What the tools find in a method, added to what was found before. -/
def method (tools : List Tool) (file : ClassFile) (found : Array Finding × Diagnostics)
    (m : Method) : Array Finding × Diagnostics :=
  match decodeMethod file m with
  | .error failure => (found.1, found.2.record failure)
  | .ok instructions =>
    (found.1 ++ tools.flatMap fun tool => tool.find file.dottedName m instructions, found.2)

/-- The findings in a class. -/
def classFile (tools : List Tool) (file : ClassFile) (d : Diagnostics) :
    List Finding × Diagnostics :=
  let (found, d) := file.methods.foldl (method tools file) (#[], d)
  (found.toList, d.log .debug (file.dottedName ++ ": " ++ Text.ofNat file.methods.length ++
    " methods, " ++ Text.ofNat found.size ++ " matches"))

end Scan

/-- The state of a scan: the classes decoded so far, the findings, and the diagnostics. -/
structure Progress where
  decoded : Nat := 0
  results : Aggregate
  diagnostics : Diagnostics := {}

namespace Progress

/-- Scans a decoded class into the results. -/
def classFile (tools : List Tool) (p : Progress) (file : ClassFile) : Progress :=
  let (found, d) := Scan.classFile tools file p.diagnostics
  { p with results := p.results.extend found, diagnostics := d }

def entry (tools : List Tool) (p : Progress) (e : Entry) : Progress :=
  let p := match e.reading with
    | some message => { p with diagnostics := p.diagnostics.log .debug message }
    | none => p
  match decodeEntry e.name e.data with
  | .error failure => { p with diagnostics := p.diagnostics.record failure }
  | .ok file => classFile tools { p with decoded := p.decoded + 1 } file

def entries (tools : List Tool) (p : Progress) (es : List Entry) : Progress :=
  es.foldl (entry tools) p

/-- Decodes and scans classes one after the other, up to the first that cannot be decoded. -/
def classes (tools : List Tool) : Progress → List (List UInt8) → Progress × Option Fault
  | p, [] => (p, none)
  | p, data :: rest =>
    match ClassFile.decode data with
    | .ok file => classes tools (p.classFile tools file) rest
    | .error fault => (p, some fault)

end Progress

end Callsite
