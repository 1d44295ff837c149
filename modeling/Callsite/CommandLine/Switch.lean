import Callsite.Text.Digit
import Callsite.Text.Quoted

/-!
# Switches

The options of the command line, and how a word is recognized as one: by its name, by a beginning of
a long name that no other shares, or by a short name with the value right behind it. A long name
takes its value after an equals sign.
-/

namespace Callsite.CommandLine

inductive Switch
  | help
  | application
  | directory
  | package
  | output
  | format
  | mode
  | fields
  | extension
  | config
  | info
  | debug
  deriving DecidableEq, Repr

namespace Switch

def all : List Switch :=
  [help, application, directory, package, output, format, mode, fields, extension, config, info,
    debug]

def names : Switch → List String
  | .help => ["-h", "--help"]
  | .application => ["-a", "--application"]
  | .directory => ["-d", "--directory"]
  | .package => ["-p", "--package"]
  | .output => ["-o", "--output"]
  | .format => ["--format"]
  | .mode => ["--mode"]
  | .fields => ["--fields"]
  | .extension => ["--ext"]
  | .config => ["--config"]
  | .info => ["--info"]
  | .debug => ["--debug"]

/-- The name of a switch in messages. -/
def label (s : Switch) : String := "/".intercalate s.names

def takesValue : Switch → Bool
  | .help | .fields | .info | .debug => false
  | _ => true

/-- All names with their switches. -/
def named : List (Text × Switch) :=
  all.flatMap fun s => s.names.map fun name => (Text.ofString name, s)

def ofName? (t : Text) : Option Switch := (named.find? (·.1 = t)).map Prod.snd

def ofLetter? (c : CodePoint) : Option Switch := ofName? [CodePoint.ofChar '-', c]

end Switch

/-- What a word of the command line is. -/
inductive Word
  | plain (t : Text)
  | divider
  /-- A switch, and what is attached to it in the same word: after an equals sign, or right behind a
  short name. -/
  | switch (s : Switch) (isShort : Bool) (attached : Option Text)
  | unknown (t : Text)
  deriving DecidableEq, Repr

namespace Word

/-- A minus sign and a decimal number; a newline may follow. -/
def isNegativeNumber (t : Text) : Bool :=
  match t with
  | [] => false
  | minus :: body =>
    let body := if body.getLast? = some newline then body.dropLast else body
    let whole := body.takeWhile CodePoint.isDigit
    minus = CodePoint.ofChar '-' &&
      match body.dropWhile CodePoint.isDigit with
      | [] => !whole.isEmpty
      | point :: fraction =>
        point = CodePoint.ofChar '.' && !fraction.isEmpty && fraction.all CodePoint.isDigit

/-- The long names that begin with a text. -/
def longMatches (start : Text) : List (Text × Switch) :=
  Switch.named.filter fun entry => entry.1.startsWith start

/-- A word that starts with a minus sign but is not the name of a switch. -/
def ofDashed (t : Text) : Except (List Text) Word :=
  let otherwise : Word := if isNegativeNumber t || t.contains ' ' then .plain t else .unknown t
  match t with
  | _ :: second :: rest =>
    if second = CodePoint.ofChar '-' then
      let (start, attached) := match t.cutAt? '=' with
        | some (start, value) => (start, some value)
        | none => (t, none)
      match longMatches start with
      | [] => .ok otherwise
      | [(_, s)] => .ok (.switch s false attached)
      | candidates => .error (candidates.map Prod.fst)
    else
      match Switch.ofLetter? second with
      | some s => .ok (.switch s true (some rest))
      | none => .ok otherwise
  | _ => .ok (.plain t)

/-- Tells what a word is; an error lists the names that an ambiguous word could stand for. -/
def ofText (t : Text) : Except (List Text) Word :=
  let isShort := !t.startsWith "--"
  if t.head? ≠ some (CodePoint.ofChar '-') then .ok (.plain t)
  else
    match Switch.ofName? t with
    | some s => .ok (.switch s isShort none)
    | none =>
      match t.cutAt? '=' with
      | some (name, value) =>
        match Switch.ofName? name with
        | some s => .ok (.switch s isShort (some value))
        | none => ofDashed t
      | none => ofDashed t

end Word

end Callsite.CommandLine
