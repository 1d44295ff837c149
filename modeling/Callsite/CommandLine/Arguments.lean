import Callsite.CommandLine.Switch
import Callsite.Settings

/-!
# Arguments

The words of a command line are told apart first and then taken from left to right. Of values given
more than once the last counts, but for extensions, which add up.
-/

namespace Callsite.CommandLine

/-- What a switch that takes a value is given. Where two minus signs attached to it are taken for a
divider and dropped, the switch is given, but nothing with it. -/
inductive Given (α : Type)
  | value (a : α)
  | nothing
  deriving DecidableEq, Repr

namespace Given

def ofAttached (dropsDivider : Bool) (t : Text) : Given Text :=
  if dropsDivider && t = Text.ofString "--" then .nothing else .value t

/-- As a setting, nothing is the empty list. -/
def toJson : Given Text → Json
  | .value t => .text t
  | .nothing => .array []

def isTruthy (g : Given Text) : Bool := g.toJson.isTruthy

end Given

structure Arguments where
  application : Option (Given Text) := none
  directory : Option (Given Text) := none
  package : Option (Given Text) := none
  output : Option (Given Text) := none
  format : Option (Given Format) := none
  mode : Option (Given Mode) := none
  fields : Bool := false
  extensions : Option (List (Given Text)) := none
  config : Option (Given Text) := none
  info : Bool := false
  debug : Bool := false
  deriving DecidableEq

/-- What is wrong with a command line. -/
inductive UsageFault
  | ambiguous (word : Text) (candidates : List Text)
  | missingValue (s : Switch)
  | ignoredValue (s : Switch) (value : Text)
  | invalidChoice (s : Switch) (value : Text) (choices : List String)
  | conflict (s other : Switch)
  | unrecognized (words : List Text)
  | settings (fault : SettingsFault)
  | packageRequired
  | targetRequired

namespace UsageFault

def about (s : Switch) (message : Text) : Text := "argument " ++ s.label ++ ": " ++ message

def message : UsageFault → Text
  | .ambiguous word candidates =>
    "ambiguous option: " ++ word ++ " could match " ++ Text.join ", " candidates
  | .missingValue s => about s "expected one argument"
  | .ignoredValue s value => about s ("ignored explicit argument " ++ value.quoted)
  | .invalidChoice s value choices =>
    about s ("invalid choice: " ++ value.quoted ++ " (choose from " ++
      Text.join ", " (choices.map fun choice => (Text.ofString choice).quoted) ++ ")")
  | .conflict s other => about s ("not allowed with argument " ++ other.label)
  | .unrecognized words => "unrecognized arguments: " ++ Text.join " " words
  | .settings fault => fault.message
  | .packageRequired => "the following arguments are required: -p/--package"
  | .targetRequired => "exactly one of -a/--application or -d/--directory is required"

end UsageFault

/-- Why the arguments do not lead to a run. -/
inductive Refusal
  | help
  | usage (fault : UsageFault)

/-- Tells the words apart. What follows a divider is plain. -/
def words : List Text → Except Refusal (List Word)
  | [] => .ok []
  | t :: rest =>
    if t = Text.ofString "--" then .ok (.divider :: rest.map .plain)
    else
      match Word.ofText t with
      | .error candidates => .error (.usage (.ambiguous t candidates))
      | .ok word => (words rest).map (word :: ·)

/-- A switch to be acted on, with what it is given if it takes a value. -/
abbrev Action := Switch × Given Text

/-- A switch alone in its word takes the next word for its value, if that is a plain one. The result
also tells whether it did. -/
def settlePlain (next : Option Text) (s : Switch) : Except Refusal (List Action × Bool) :=
  if !s.takesValue then .ok ([(s, .nothing)], false)
  else
    match next with
    | some value => .ok ([(s, .value value)], true)
    | none => .error (.usage (.missingValue s))

/-- A switch with something attached. What is attached to a short switch that takes no value has to
be further short switches, the last of them with a value behind it if it takes one. -/
def settleAttached (dropsDivider : Bool) (next : Option Text) :
    Switch → Bool → Text → Except Refusal (List Action × Bool)
  | s, _, [] =>
    if s.takesValue then .ok ([(s, .value [])], false) else .error (.usage (.ignoredValue s []))
  | s, isShort, c :: rest =>
    if s.takesValue then .ok ([(s, .ofAttached dropsDivider (c :: rest))], false)
    else
      match if isShort then Switch.ofLetter? c else none with
      | none => .error (.usage (.ignoredValue s (c :: rest)))
      | some following => do
        let (actions, used) ← match rest with
          | [] => settlePlain next following
          | d :: tail => settleAttached dropsDivider next following true (d :: tail)
        return ((s, .nothing) :: actions, used)

def settle (dropsDivider : Bool) (next : Option Text) (s : Switch) (isShort : Bool) :
    Option Text → Except Refusal (List Action × Bool)
  | none => settlePlain next s
  | some attached => settleAttached dropsDivider next s isShort attached

namespace Arguments

/-- The choice that a value names. -/
def choice (s : Switch) (choices : List String) (ofText? : Text → Option α) :
    Given Text → Except Refusal (Given α)
  | .nothing => .ok .nothing
  | .value t =>
    match ofText? t with
    | some a => .ok (.value a)
    | none => .error (.usage (.invalidChoice s t choices))

/-- Acts on a switch. The application and the directory exclude each other. -/
def act (a : Arguments) : Action → Except Refusal Arguments
  | (.help, _) => .error .help
  | (.application, value) =>
    if a.directory.isSome then .error (.usage (.conflict .application .directory))
    else .ok { a with application := some value }
  | (.directory, value) =>
    if a.application.isSome then .error (.usage (.conflict .directory .application))
    else .ok { a with directory := some value }
  | (.package, value) => .ok { a with package := some value }
  | (.output, value) => .ok { a with output := some value }
  | (.format, value) => do
    return { a with format := some (← choice .format ["log", "csv"] Format.ofText? value) }
  | (.mode, value) => do
    return { a with mode := some (← choice .mode ["ordered", "unordered"] Mode.ofText? value) }
  | (.fields, _) => .ok { a with fields := true }
  | (.extension, value) => .ok { a with extensions := some (a.extensions.getD [] ++ [value]) }
  | (.config, value) => .ok { a with config := some value }
  | (.info, _) => .ok { a with info := true }
  | (.debug, _) => .ok { a with debug := true }

/-- Takes the words from left to right and collects those that belong to no switch. -/
def take (dropsDivider : Bool) (a : Arguments) (extras : List Text) :
    List Word → Except Refusal (Arguments × List Text)
  | [] => .ok (a, extras)
  | .plain t :: rest => take dropsDivider a (extras ++ [t]) rest
  | .divider :: rest => take dropsDivider a (extras ++ [Text.ofString "--"]) rest
  | .unknown t :: rest => take dropsDivider a (extras ++ [t]) rest
  | .switch s isShort attached :: .plain value :: rest => do
    let (actions, used) ← settle dropsDivider (some value) s isShort attached
    let a ← actions.foldlM act a
    take dropsDivider a (if used then extras else extras ++ [value]) rest
  | .switch s isShort attached :: rest => do
    let (actions, _) ← settle dropsDivider none s isShort attached
    take dropsDivider (← actions.foldlM act a) extras rest

def ofWords (dropsDivider : Bool) (given : List Text) : Except Refusal Arguments := do
  let (a, extras) ← take dropsDivider {} [] (← words given)
  if extras.isEmpty then return a else throw (.usage (.unrecognized extras))

/-- The choice that was given, or else a default. -/
def chosen (fault : Json → SettingsFault) (default : α) :
    Option (Given α) → Except SettingsFault α
  | none => .ok default
  | some (.value a) => .ok a
  | some .nothing => .error (fault (.array []))

/-- The extensions that were given, or else those of the settings. They are normalized once more,
wherever they come from. -/
def extensionsOver (a : Arguments) (base : Settings) : Except SettingsFault (List Text) :=
  match a.extensions with
  | none => .ok (base.extensions.map Settings.normalizeExtension)
  | some given => given.mapM fun g => Settings.extension g.toJson

/-- The arguments laid over the settings, field by field. An application or a directory that is not
empty sets the other back. -/
def laidOver (a : Arguments) (base : Settings) (format : Format) (mode : Mode) (extensions : List Text) :
    Settings :=
  let laid (given : Option (Given Text)) (value : Json) : Json := (given.map Given.toJson).getD value
  let resets := a.application.any Given.isTruthy || a.directory.any Given.isTruthy
  { package := laid a.package base.package
    application := laid a.application (if resets then .null else base.application)
    directory := laid a.directory (if resets then .null else base.directory)
    output := laid a.output base.output
    format
    mode
    extensions
    includeFields := if a.fields then .bool true else base.includeFields
    debug := if a.debug then .bool true else base.debug }

/-- The settings with the arguments laid over them. Format and mode are checked before the
extensions. -/
def override (a : Arguments) (base : Settings) : Except SettingsFault Settings := do
  let format ← chosen .unknownFormat base.format a.format
  let mode ← chosen .unknownMode base.mode a.mode
  let extensions ← a.extensionsOver base
  return a.laidOver base format mode extensions

/-- A run needs a package, and one of an application and a directory. -/
def check (s : Settings) : Except UsageFault Settings :=
  if !s.package.isTruthy then .error .packageRequired
  else if s.application.isTruthy = s.directory.isTruthy then .error .targetRequired
  else .ok s

end Arguments

end Callsite.CommandLine
