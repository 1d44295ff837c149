import Callsite.Finding
import Callsite.Path
import Callsite.Run

/-!
# Reports

The findings of an archive in a file, as lines of text or as comma-separated values. The name of the
file tells the archive and the package.
-/

namespace Callsite

/-- The start of the owner signatures of a package's members. -/
def normalizePackage (package : Text) : Text := "L" ++ package.replaceAll '.' '/'

/-- A package as it is shown, from the start of its owner signatures. -/
def packageLabel (stem : Text) : Text :=
  Text.dotted (if stem.startsWith "L" then stem.drop 1 else stem)

inductive Format
  | log
  | csv
  deriving DecidableEq, Repr

namespace Format

def label : Format → String
  | .log => "log"
  | .csv => "csv"

def ofText? (t : Text) : Option Format :=
  if t = Text.ofString "log" then some .log
  else if t = Text.ofString "csv" then some .csv
  else none

end Format

namespace Csv

def comma : CodePoint := CodePoint.ofChar ','

def isSpecial (c : CodePoint) : Bool :=
  c = comma || c = quotationMark || c = carriageReturn || c = newline

/-- A field that holds a special character stands in quotation marks, and those inside it are
doubled. -/
def field (t : Text) : Text :=
  if t.any isSpecial then
    quotationMark ::
      (t.flatMap fun c => if c = quotationMark then [c, c] else [c]) ++ [quotationMark]
  else t

def row (fields : List Text) : Text :=
  Text.join [comma] (fields.map field) ++ [carriageReturn, newline]

end Csv

namespace Report

/-- The place of a report, in the output directory. -/
def path (output archive : Path) (stem format : Text) : Path :=
  output.append (archive.name ++ "_" ++ packageLabel stem ++ "." ++ format)

def render (format : Format) (findings : List Finding) : Text :=
  match format with
  | .log => findings.flatMap fun f => f.render ++ [newline]
  | .csv =>
    Csv.row ["caller", "callee"] ++ findings.flatMap fun f => Csv.row [f.caller, f.callee]

def encode (format : Format) (findings : List Finding) : List UInt8 :=
  Utf8.encode (render format findings).escapeSurrogates

variable {m : Type → Type} [Monad m] [FileStore m]

/-- Writes content to a file; false if the file store refuses. -/
def put (path : Path) (content : List UInt8) : Run m Bool := do
  match ← Run.withFile path.render (FileStore.write · content) with
  | .ok _ => return true
  | .error error =>
    Run.log .error ("Cannot write to file " ++ path.render ++ ": " ++ error.message)
    return false

def write (findings : List Finding) (path : Path) (format : Format) : Run m Bool := do
  if ← put path (encode format findings) then
    let here : Text ← liftM (FileStore.workingDirectory : m Text)
    Run.log .info ("Results dumped to " ++ path.absolute here)
    return true
  else return false

/-- Writes a report in a format given by name. The file is emptied before the name is looked at. -/
def writeNamed (findings : List Finding) (path : Path) (format : Text) : Run m Bool := do
  match Format.ofText? format with
  | some format => write findings path format
  | none => if ← put path [] then throw (.reportFormat format) else return false

end Report

end Callsite
