import Callsite.Json.Value

/-!
# Reading JSON

A reader of JSON documents that reports the place of the first fault. Beside standard JSON it takes
the numbers `NaN`, `Infinity` and `-Infinity`. Of members with the same key the last one counts. How
many brackets may be open at once is left to the platform.
-/

namespace Callsite.Json

inductive Reason
  | expectingValue
  | expectingName
  | expectingColon
  | expectingComma
  | unterminatedText
  | controlCharacter
  | badEscape
  | badUnicodeEscape
  | extraData
  | byteOrderMark
  deriving DecidableEq, Repr

def Reason.message : Reason → String
  | .expectingValue => "Expecting value"
  | .expectingName => "Expecting property name enclosed in double quotes"
  | .expectingColon => "Expecting ':' delimiter"
  | .expectingComma => "Expecting ',' delimiter"
  | .unterminatedText => "Unterminated string starting at"
  | .controlCharacter => "Invalid control character at"
  | .badEscape => "Invalid \\escape"
  | .badUnicodeEscape => "Invalid \\uXXXX escape"
  | .extraData => "Extra data"
  | .byteOrderMark => "Unexpected UTF-8 BOM (decode using utf-8-sig)"

inductive Container
  | array
  | object
  deriving DecidableEq, Repr

def Container.label : Container → String
  | .array => "array"
  | .object => "object"

inductive Fault
  | malformed (reason : Reason) (position : Nat)
  | tooDeep (container : Container)
  | tooManyDigits (count : Nat)
  deriving DecidableEq, Repr

/-- The longest integer that is read. -/
def digitLimit : Nat := 4300

/-- The message of a fault in a document; lines and columns count from 1. -/
def Fault.message (document : Text) : Fault → Text
  | .malformed reason position =>
    let before := document.take position
    let line := before.count newline + 1
    let column := (before.reverse.takeWhile (· ≠ newline)).length + 1
    reason.message ++ ": line " ++ Text.ofNat line ++ " column " ++ Text.ofNat column ++
      " (char " ++ Text.ofNat position ++ ")"
  | .tooDeep container =>
    "maximum recursion depth exceeded while decoding a JSON " ++ container.label ++
      " from a unicode string"
  | .tooManyDigits count =>
    "Exceeds the limit (" ++ Text.ofNat digitLimit ++
      " digits) for integer string conversion: value has " ++ Text.ofNat count ++
      " digits; use sys.set_int_max_str_digits() to increase the limit"

/-- The unread part of a document and the number of code points before it. -/
structure Place where
  rest : Text
  position : Nat

abbrev Reader := EStateM Fault Place

namespace Reader

def fail (reason : Reason) (position : Nat) : Reader α := throw (.malformed reason position)

def advance (n : Nat) : Reader Unit :=
  modify fun p => { rest := p.rest.drop n, position := p.position + n }

def position : Reader Nat := Place.position <$> get

def peek? : Reader (Option CodePoint) := (·.rest.head?) <$> get

def isSpace (c : CodePoint) : Bool :=
  c = CodePoint.ofChar ' ' || c = tabulator || c = newline || c = carriageReturn

def skipSpace : Reader Unit := do
  advance ((← get).rest.takeWhile isSpace).length

def isAsciiDigit (c : CodePoint) : Bool := 0x30 ≤ c.val && c.val ≤ 0x39

def natOfDigits (digits : Text) : Nat := digits.foldl (fun n c => n * 10 + (c.val - 0x30)) 0

def hexDigit? (c : CodePoint) : Option Nat :=
  if isAsciiDigit c then some (c.val - 0x30)
  else if 0x61 ≤ c.val && c.val ≤ 0x66 then some (c.val - 0x61 + 10)
  else if 0x41 ≤ c.val && c.val ≤ 0x46 then some (c.val - 0x41 + 10)
  else none

/-- The number that four hexadecimal digits at the front spell. -/
def hexFour? (t : Text) : Option Nat :=
  match t with
  | a :: b :: c :: d :: _ => do
    let a ← hexDigit? a
    let b ← hexDigit? b
    let c ← hexDigit? c
    let d ← hexDigit? d
    return ((a * 16 + b) * 16 + c) * 16 + d
  | _ => none

def simpleEscape? (c : CodePoint) : Option CodePoint :=
  if c = quotationMark || c = backslash || c = CodePoint.ofChar '/' then some c
  else if c = CodePoint.ofChar 'b' then some (CodePoint.ofNat 0x08)
  else if c = CodePoint.ofChar 'f' then some (CodePoint.ofNat 0x0C)
  else if c = CodePoint.ofChar 'n' then some newline
  else if c = CodePoint.ofChar 'r' then some carriageReturn
  else if c = CodePoint.ofChar 't' then some tabulator
  else none

/-- What an escape stands for, and its length after the backslash. `position` is the place of the
backslash. The digits of a numeric escape must not be the last of the document, because a closing
quotation mark is still to come; a pair of surrogates is one code point. -/
def escape (position : Nat) : Text → Except Fault (Option (CodePoint × Nat))
  | [] => .ok none
  | c :: rest =>
    if c ≠ CodePoint.ofChar 'u' then
      match simpleEscape? c with
      | some c => .ok (some (c, 1))
      | none => .error (.malformed .badEscape position)
    else
      match hexFour? rest, rest.drop 4 with
      | some n, _ :: _ =>
        let high : CodePoint := CodePoint.ofNat n
        let after := rest.drop 4
        if high.isHighSurrogate && after.length > 6 && after.take 2 == Text.ofString "\\u" then
          match hexFour? (after.drop 2) with
          | some m =>
            let low : CodePoint := CodePoint.ofNat m
            if low.isLowSurrogate then .ok (some (CodePoint.ofPair high low, 11))
            else .ok (some (high, 5))
          | none => .error (.malformed .badUnicodeEscape (position + 7))
        else .ok (some (high, 5))
      | _, _ => .error (.malformed .badUnicodeEscape (position + 1))

/-- Reads on to the closing quotation mark of a text that starts at `start`. -/
def textFrom (start : Nat) : Nat → Text → Reader Text
  | 0, _ => fail .unterminatedText start
  | fuel + 1, done => do
    let place ← get
    match place.rest with
    | [] => fail .unterminatedText start
    | c :: rest =>
      if c = quotationMark then
        advance 1
        return done.reverse
      else if c = backslash then
        match escape place.position rest with
        | .error e => throw e
        | .ok none => fail .unterminatedText start
        | .ok (some (c, length)) =>
          advance (length + 1)
          textFrom start fuel (c :: done)
      else if c.val < 0x20 then fail .controlCharacter place.position
      else
        advance 1
        textFrom start fuel (c :: done)

/-- Reads a text from its opening quotation mark on. -/
def text : Reader Text := do
  let place ← get
  advance 1
  textFrom place.position place.rest.length []

/-- The integer digits at the front: a single zero, or digits that do not start with one. -/
def integerDigits (t : Text) : Text :=
  match t with
  | c :: _ => if c = CodePoint.ofChar '0' then [c] else t.takeWhile isAsciiDigit
  | [] => []

/-- The digits after a decimal point, if there are any. -/
def fractionDigits (t : Text) : Text :=
  match t with
  | c :: rest => if c = CodePoint.ofChar '.' then rest.takeWhile isAsciiDigit else []
  | [] => []

/-- The sign, digits and length of an exponent, if there is one. -/
def exponent? (t : Text) : Option (Bool × Text × Nat) :=
  match t with
  | c :: rest =>
    if c = CodePoint.ofChar 'e' || c = CodePoint.ofChar 'E' then
      let signed := match rest with
        | s :: _ => s = CodePoint.ofChar '-' || s = CodePoint.ofChar '+'
        | [] => false
      let negative := rest.head? = some (CodePoint.ofChar '-')
      let digits := (if signed then rest.drop 1 else rest).takeWhile isAsciiDigit
      if digits.isEmpty then none
      else some (negative, digits, 1 + (if signed then 1 else 0) + digits.length)
    else none
  | [] => none

/-- Reads a number; where there is none, a value was expected. -/
def number : Reader Json := do
  let place ← get
  let negative := place.rest.head? = some (CodePoint.ofChar '-')
  let unsigned := if negative then place.rest.drop 1 else place.rest
  let whole := integerDigits unsigned
  if whole.isEmpty then fail .expectingValue place.position
  else
    let afterWhole := unsigned.drop whole.length
    let fraction := fractionDigits afterWhole
    let afterFraction :=
      if fraction.isEmpty then afterWhole else afterWhole.drop (fraction.length + 1)
    let exponent := exponent? afterFraction
    let length := place.rest.length - afterFraction.length +
      (match exponent with | some (_, _, n) => n | none => 0)
    advance length
    if fraction.isEmpty && exponent.isNone then
      if whole.length > digitLimit then throw (.tooManyDigits whole.length)
      else
        let n : Int := natOfDigits whole
        return .int (if negative then -n else n)
    else
      let power : Int := match exponent with
        | some (true, digits, _) => -(natOfDigits digits : Int)
        | some (false, digits, _) => natOfDigits digits
        | none => 0
      return .float (.ofDecimal negative (natOfDigits (whole ++ fraction))
        (power - fraction.length))

/-- The values that are written as a word. -/
def words : List (Text × Json) :=
  [("null", .null), ("true", .bool true), ("false", .bool false), ("NaN", .float .nan),
    ("Infinity", .float (.infinity 0)), ("-Infinity", .float (.infinity 1))]

def word? (t : Text) : Option (Text × Json) := words.find? fun w => t.startsWith w.1

mutual

/-- Reads a value at a depth of nesting. -/
def value (depthLimit : Nat) : Nat → Nat → Reader Json
  | 0, _ => do fail .expectingValue (← position)
  | fuel + 1, depth => do
    let place ← get
    match place.rest with
    | [] => fail .expectingValue place.position
    | c :: _ =>
      if c = quotationMark then .text <$> text
      else if c = CodePoint.ofChar '\x7b' then
        if depth ≥ depthLimit then throw (.tooDeep .object)
        else
          advance 1
          skipSpace
          if (← peek?) = some (CodePoint.ofChar '\x7d') then
            advance 1
            return .object []
          else .object <$> members depthLimit fuel (depth + 1) []
      else if c = CodePoint.ofChar '[' then
        if depth ≥ depthLimit then throw (.tooDeep .array)
        else
          advance 1
          skipSpace
          if (← peek?) = some (CodePoint.ofChar ']') then
            advance 1
            return .array []
          else .array <$> items depthLimit fuel (depth + 1) []
      else match word? place.rest with
        | some (word, value) =>
          advance word.length
          return value
        | none => number

/-- Reads items up to the closing bracket. -/
def items (depthLimit : Nat) : Nat → Nat → List Json → Reader (List Json)
  | 0, _, _ => do fail .expectingValue (← position)
  | fuel + 1, depth, done => do
    let item ← value depthLimit fuel depth
    skipSpace
    match ← peek? with
    | some c =>
      if c = CodePoint.ofChar ']' then
        advance 1
        return (item :: done).reverse
      else if c = CodePoint.ofChar ',' then
        advance 1
        skipSpace
        items depthLimit fuel depth (item :: done)
      else fail .expectingComma (← position)
    | none => fail .expectingComma (← position)

/-- Reads members up to the closing brace. -/
def members (depthLimit : Nat) : Nat → Nat → List (Text × Json) → Reader (List (Text × Json))
  | 0, _, _ => do fail .expectingName (← position)
  | fuel + 1, depth, done => do
    if (← peek?) ≠ some quotationMark then fail .expectingName (← position)
    else
      let key ← text
      skipSpace
      if (← peek?) ≠ some (CodePoint.ofChar ':') then fail .expectingColon (← position)
      else
        advance 1
        skipSpace
        let value ← value depthLimit fuel depth
        let done := setMember done key value
        skipSpace
        match ← peek? with
        | some c =>
          if c = CodePoint.ofChar '\x7d' then
            advance 1
            return done
          else if c = CodePoint.ofChar ',' then
            advance 1
            skipSpace
            members depthLimit fuel depth done
          else fail .expectingComma (← position)
        | none => fail .expectingComma (← position)

end

/-- Reads a whole document. Every bracket takes two steps, one for the value and one for what it
holds, and all other steps use up at least one code point, so twice as many steps as there are code
points are enough, and one for a value that is missing at the end. -/
def document (depthLimit : Nat) : Reader Json := do
  let place ← get
  if place.rest.head? = some (CodePoint.ofNat 0xFEFF) then fail .byteOrderMark 0
  else
    skipSpace
    let value ← value depthLimit (2 * place.rest.length + 1) 0
    skipSpace
    if (← get).rest.isEmpty then return value
    else fail .extraData (← position)

end Reader

/-- The value of a document. -/
def read (depthLimit : Nat) (document : Text) : Except Fault Json :=
  match Reader.document depthLimit { rest := document, position := 0 } with
  | .ok value _ => .ok value
  | .error fault _ => .error fault

end Callsite.Json
