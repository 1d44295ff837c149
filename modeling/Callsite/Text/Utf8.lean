import Callsite.Text.Quoted

/-!
# UTF-8

Strict UTF-8: shortest forms only, no surrogates, nothing above U+10FFFF. Decoding takes one code
point after the other; a fault says which bytes were given up on and why.
-/

namespace Callsite.Utf8

inductive Reason
  | invalidStart
  | invalidContinuation
  | unexpectedEnd
  deriving DecidableEq, Repr

/-- `size` bytes were rejected. -/
structure Flaw where
  reason : Reason
  size : Nat
  deriving DecidableEq, Repr

/-- A step takes one code point from the front of the bytes and leaves the rest. -/
abbrev Step := List UInt8 → Except Flaw (CodePoint × List UInt8)

def isContinuation (b : UInt8) : Bool := 0x80 ≤ b && b ≤ 0xBF

/-- The second bytes that may follow a given first byte. -/
def mayFollow (first second : UInt8) : Bool :=
  if first = 0xE0 then 0xA0 ≤ second && second ≤ 0xBF
  else if first = 0xED then 0x80 ≤ second && second ≤ 0x9F
  else if first = 0xF0 then 0x90 ≤ second && second ≤ 0xBF
  else if first = 0xF4 then 0x80 ≤ second && second ≤ 0x8F
  else isContinuation second

/-- The number that a lead byte, cut to its payload, and continuation bytes spell. -/
def assemble (lead : Nat) (continuations : List UInt8) : CodePoint :=
  CodePoint.ofNat (continuations.foldl (fun n b => n * 64 + (b.toNat - 0x80)) lead)

def two (b₀ : UInt8) : Step
  | [] => .error ⟨.unexpectedEnd, 1⟩
  | b₁ :: rest =>
    if mayFollow b₀ b₁ then .ok (assemble (b₀.toNat - 0xC0) [b₁], rest)
    else .error ⟨.invalidContinuation, 1⟩

def three (b₀ : UInt8) : Step
  | [] => .error ⟨.unexpectedEnd, 1⟩
  | b₁ :: rest =>
    if !mayFollow b₀ b₁ then .error ⟨.invalidContinuation, 1⟩
    else match rest with
      | [] => .error ⟨.unexpectedEnd, 2⟩
      | b₂ :: rest =>
        if isContinuation b₂ then .ok (assemble (b₀.toNat - 0xE0) [b₁, b₂], rest)
        else .error ⟨.invalidContinuation, 2⟩

def four (b₀ : UInt8) : Step
  | [] => .error ⟨.unexpectedEnd, 1⟩
  | b₁ :: rest =>
    if !mayFollow b₀ b₁ then .error ⟨.invalidContinuation, 1⟩
    else match rest with
      | [] => .error ⟨.unexpectedEnd, 2⟩
      | b₂ :: rest =>
        if !isContinuation b₂ then .error ⟨.invalidContinuation, 2⟩
        else match rest with
          | [] => .error ⟨.unexpectedEnd, 3⟩
          | b₃ :: rest =>
            if isContinuation b₃ then .ok (assemble (b₀.toNat - 0xF0) [b₁, b₂, b₃], rest)
            else .error ⟨.invalidContinuation, 3⟩

def next : Step
  | [] => .error ⟨.unexpectedEnd, 0⟩
  | b₀ :: rest =>
    if b₀ < 0x80 then .ok (CodePoint.ofNat b₀.toNat, rest)
    else if b₀ < 0xC2 then .error ⟨.invalidStart, 1⟩
    else if b₀ < 0xE0 then two b₀ rest
    else if b₀ < 0xF0 then three b₀ rest
    else if b₀ < 0xF5 then four b₀ rest
    else .error ⟨.invalidStart, 1⟩

/-- The number of bytes of a code point. -/
def size (c : CodePoint) : Nat :=
  if c.val < 0x80 then 1 else if c.val < 0x800 then 2 else if c.val < 0x10000 then 3 else 4

structure Fault where
  reason : Reason
  start : Nat
  size : Nat
  byte : UInt8
  deriving DecidableEq, Repr

def Reason.message : Reason → Text
  | .invalidStart => "invalid start byte"
  | .invalidContinuation => "invalid continuation byte"
  | .unexpectedEnd => "unexpected end of data"

def Fault.message (f : Fault) : Text :=
  let place : Text :=
    if f.size = 1 then
      "byte 0x" ++ Text.hex 2 f.byte.toNat ++ " in position " ++ Text.ofNat f.start
    else
      "bytes in position " ++ Text.ofNat f.start ++ "-" ++ Text.ofNat (f.start + f.size - 1)
  "'utf-8' codec can't decode " ++ place ++ ": " ++ f.reason.message

/-- Takes code points by `step` until the bytes are used up. Every step uses at least one byte, so
as many steps as there are bytes are enough. -/
def decodeFrom (step : Step) : Nat → Nat → List UInt8 → Text → Except Fault Text
  | _, _, [], taken => .ok taken.reverse
  | 0, position, b :: _, _ => .error ⟨.unexpectedEnd, position, 0, b⟩
  | fuel + 1, position, b :: bytes, taken =>
    match step (b :: bytes) with
    | .ok (c, rest) => decodeFrom step fuel (position + size c) rest (c :: taken)
    | .error flaw => .error ⟨flaw.reason, position, flaw.size, b⟩

def decodeBy (step : Step) (bytes : List UInt8) : Except Fault Text :=
  decodeFrom step bytes.length 0 bytes []

def decode (bytes : List UInt8) : Except Fault Text := decodeBy next bytes

def continuation (n : Nat) : UInt8 := UInt8.ofNat (0x80 + n % 64)

def encodePoint (c : CodePoint) : List UInt8 :=
  let n := c.val
  if n < 0x80 then [UInt8.ofNat n]
  else if n < 0x800 then [UInt8.ofNat (0xC0 + n / 64), continuation n]
  else if n < 0x10000 then
    [UInt8.ofNat (0xE0 + n / 4096), continuation (n / 64), continuation n]
  else
    [UInt8.ofNat (0xF0 + n / 262144), continuation (n / 4096), continuation (n / 64),
      continuation n]

def encode (t : Text) : List UInt8 := t.flatMap encodePoint

/-- A run of surrogates in a text, which for that reason has no form in UTF-8. -/
structure SurrogateRun where
  start : Nat
  size : Nat
  first : CodePoint
  deriving DecidableEq, Repr

def SurrogateRun.message (r : SurrogateRun) : Text :=
  let place : Text :=
    if r.size = 1 then
      " '\\u" ++ Text.hex 4 r.first.val ++ "' in position " ++ Text.ofNat r.start
    else "s in position " ++ Text.ofNat r.start ++ "-" ++ Text.ofNat (r.start + r.size - 1)
  "'utf-8' codec can't encode character" ++ place ++ ": surrogates not allowed"

/-- The first run of surrogates that are not all allowed. Every run holds at least one code point, so
as many steps as there are code points are enough. -/
def surrogateRunFrom? (allowed : CodePoint → Bool) : Nat → Nat → Text → Option SurrogateRun
  | 0, _, _ => none
  | fuel + 1, position, t =>
    let clean := (t.takeWhile (!·.isSurrogate)).length
    let rest := t.drop clean
    let run := rest.takeWhile CodePoint.isSurrogate
    match run with
    | [] => none
    | first :: _ =>
      let start := position + clean
      if run.all allowed then
        surrogateRunFrom? allowed fuel (start + run.length) (rest.drop run.length)
      else some ⟨start, run.length, first⟩

def surrogateRun? (allowed : CodePoint → Bool) (t : Text) : Option SurrogateRun :=
  surrogateRunFrom? allowed t.length 0 t

end Callsite.Utf8

namespace Callsite.Text

/-- UTF-8 has no room for surrogates; they are written out as six characters. -/
def escapeSurrogates (t : Text) : Text :=
  t.flatMap fun c => if c.isSurrogate then "\\u" ++ hex 4 c.val else [c]

end Callsite.Text
