import Callsite.Aggregate
import Callsite.Json.Reader
import Callsite.Report
import Callsite.Text.LowerCase

/-!
# Settings

The options of a run. They come from a JSON object whose values are of any type; only the report
format, the mode and the extensions are looked at here.
-/

namespace Callsite

structure Settings where
  package : Json := .text []
  application : Json := .null
  directory : Json := .null
  output : Json := .null
  format : Format := .log
  mode : Mode := .ordered
  extensions : List Text := [Text.ofString "jar"]
  includeFields : Json := .bool false
  debug : Json := .bool false

inductive SettingsFault
  | unreadable (error : SystemError)
  | noFile (fault : PathFault)
  | encoding (fault : Utf8.Fault)
  | malformed (document : Text) (fault : Json.Fault)
  | notAnObject (path : Text) (typeName : String)
  | unknownKeys (path : Text) (keys : List Text)
  | unknownKey (key : Text)
  | unknownFormat (value : Json)
  | unknownMode (value : Json)
  | notIterable (typeName : String)
  | extensionType (typeName : String)

namespace SettingsFault

def message : SettingsFault → Text
  | .unreadable error => error.message
  | .noFile fault => fault.message
  | .encoding fault => fault.message
  | .malformed document fault => fault.message document
  | .notAnObject path typeName => path ++ ": expected a JSON object, got " ++ typeName
  | .unknownKeys path keys =>
    path ++ ": unknown config keys " ++ (Json.array (keys.map .text)).literal
  | .unknownKey key =>
    "DetectorConfig.__init__() got an unexpected keyword argument '" ++ key ++ "'"
  | .unknownFormat value =>
    "unknown report format " ++ value.literal ++ ", expected one of ('log', 'csv')"
  | .unknownMode value =>
    "unknown mode " ++ value.literal ++ ", expected one of ('ordered', 'unordered')"
  | .notIterable typeName => "'" ++ typeName ++ "' object is not iterable"
  | .extensionType typeName => "'" ++ typeName ++ "' object has no attribute 'lower'"

/-- Whether a fault is told to the user as wrong usage. Any other ends the program. -/
def isUsageFault : SettingsFault → Bool
  | .extensionType _ => false
  | .malformed _ (.tooDeep _) => false
  | _ => true

end SettingsFault

namespace Settings

/-- Extensions are compared in lower case and without the dots in front. -/
def normalizeExtension (t : Text) : Text := t.lower.stripLeading '.'

/-- The values that a value holds: characters, items or keys. -/
def elements : Json → Except SettingsFault (List Json)
  | .text value => .ok (value.map fun c => .text [c])
  | .array items => .ok items
  | .object members => .ok (members.map fun member => .text member.1)
  | other => .error (.notIterable other.typeName)

def extension : Json → Except SettingsFault Text
  | .text value => .ok (normalizeExtension value)
  | other => .error (.extensionType other.typeName)

def extensionsOf (value : Json) : Except SettingsFault (List Text) := do
  (← elements value).mapM extension

/-- The choice that a value names. -/
def choiceOf (ofText? : Text → Option α) (fault : Json → SettingsFault) (value : Json) :
    Except SettingsFault α :=
  match value with
  | .text name =>
    match ofText? name with
    | some choice => .ok choice
    | none => .error (fault value)
  | _ => .error (fault value)

def formatOf : Json → Except SettingsFault Format := choiceOf Format.ofText? .unknownFormat

def modeOf : Json → Except SettingsFault Mode := choiceOf Mode.ofText? .unknownMode

def keys : List Text :=
  ["package", "application", "directory", "output", "report_format", "mode", "extensions",
    "include_fields", "debug"]

/-- The value that a key has, checked, or the default. -/
def memberOr (members : List (Text × Json)) (key : String) (check : Json → Except SettingsFault α)
    (default : α) : Except SettingsFault α :=
  match Json.member? members key with
  | some value => check value
  | none => .ok default

/-- The settings that members with known keys describe. Format and mode are checked before the
extensions. -/
def ofMembers (members : List (Text × Json)) : Except SettingsFault Settings := do
  match members.find? fun member => !keys.contains member.1 with
  | some (key, _) => throw (.unknownKey key)
  | none =>
    let given (key : String) (default : Json) : Json := (Json.member? members key).getD default
    let standard : Settings := {}
    let format ← memberOr members "report_format" formatOf standard.format
    let mode ← memberOr members "mode" modeOf standard.mode
    let extensions ← memberOr members "extensions" extensionsOf
      (standard.extensions.map normalizeExtension)
    return {
      package := given "package" standard.package
      application := given "application" standard.application
      directory := given "directory" standard.directory
      output := given "output" standard.output
      format
      mode
      extensions
      includeFields := given "include_fields" standard.includeFields
      debug := given "debug" standard.debug }

/-- Line ends are a carriage return, a newline, or both. -/
def plainNewlines : Text → Text
  | [] => []
  | c :: rest =>
    if c ≠ carriageReturn then c :: plainNewlines rest
    else match rest with
      | [] => [newline]
      | d :: _ => if d = newline then plainNewlines rest else newline :: plainNewlines rest

/-- The settings in an object. Extensions that hold no values are found before all other faults. -/
def ofObject (path : Text) (members : List (Text × Json)) : Except SettingsFault Settings := do
  match (members.map Prod.fst).filter (!keys.contains ·) with
  | [] =>
    let _ ← memberOr members "extensions" elements []
    ofMembers members
  | unknown => throw (.unknownKeys path (unknown.mergeSort fun a b => !decide (b < a)))

/-- The settings in the content of a file. -/
def ofContent (depthLimit : Nat) (path : Text) (content : List UInt8) :
    Except SettingsFault Settings :=
  match Utf8.decode content with
  | .error fault => .error (.encoding fault)
  | .ok text =>
    let document := plainNewlines text
    match Json.read depthLimit document with
    | .error fault => .error (.malformed document fault)
    | .ok (.object members) => ofObject path members
    | .ok other => .error (.notAnObject path other.typeName)

def ofFile {m : Type → Type} [Monad m] [FileStore m] (depthLimit : Nat) (path : Text) :
    m (Except SettingsFault Settings) := do
  match FileName.check path with
  | .error fault => return .error (.noFile fault)
  | .ok _ =>
    match ← FileStore.read path with
    | .error error => return .error (.unreadable error)
    | .ok content => return ofContent depthLimit path content

end Settings

end Callsite
