import Callsite.Number.Binary64
import Callsite.Text.Basic

/-!
# Decimal numbers

From a decimal to the nearest double, halfway cases to the even one, and back to the fewest digits
that denote the same double. All arithmetic is exact.
-/

namespace Callsite.Binary64

/-- The quotient rounded to the nearest integer, halfway cases to the even one. -/
def roundDiv (a b : Nat) : Nat :=
  let q := a / b
  let r := a % b
  if 2 * r > b || (2 * r = b && q % 2 = 1) then q + 1 else q

/-- A fraction divided by a power of two, as a fraction. -/
def scaleDown (num den : Nat) (exponent : Int) : Nat × Nat :=
  if 0 ≤ exponent then (num, den <<< exponent.toNat) else (num <<< (-exponent).toNat, den)

def leastExponent : Int := -1074

def infinity (sign : Nat) : Binary64 := ofFields sign 0x7FF 0

/-- The double nearest to a positive fraction. -/
def ofFraction (sign num den : Nat) : Binary64 :=
  let low : Int := (num.log2 : Int) - den.log2 - 53
  let (a, b) := scaleDown num den low
  let exponent := max (if a / b ≥ 2 * fractionSpan then low + 1 else low) leastExponent
  let (a, b) := scaleDown num den exponent
  let mantissa := roundDiv a b
  let (mantissa, exponent) :=
    if mantissa = 2 * fractionSpan then (fractionSpan, exponent + 1) else (mantissa, exponent)
  if exponent > 971 then infinity sign
  else if mantissa < fractionSpan then ofFields sign 0 mantissa
  else ofFields sign (exponent + 1075).toNat (mantissa - fractionSpan)

def tenTo (exponent : Int) : Nat × Nat :=
  if 0 ≤ exponent then (Nat.pow 10 exponent.toNat, 1) else (1, Nat.pow 10 (-exponent).toNat)

def digitCount (n : Nat) : Nat := (Nat.toDigits 10 n).length

/-- The double nearest to `digits * 10 ^ exponent`. Far outside the range of doubles no power is
computed. -/
def ofDecimal (negative : Bool) (digits : Nat) (exponent : Int) : Binary64 :=
  let sign := if negative then 1 else 0
  let magnitude : Int := digitCount digits + exponent
  if digits = 0 || magnitude < -400 then ofFields sign 0 0
  else if magnitude > 400 then infinity sign
  else
    let (num, den) := tenTo exponent
    ofFraction sign (digits * num) den

/-- Sign, and value as a fraction; none for what is not finite. -/
def toFraction? : Binary64 → Option (Bool × Nat × Nat)
  | .nan => none
  | .number pattern =>
    let n := pattern.toNat
    let exponent : Nat := n >>> 52 % 0x800
    let fraction : Nat := n % fractionSpan
    if exponent = 0x7FF then none
    else
      let (mantissa, power) : Nat × Int :=
        if exponent = 0 then (fraction, leastExponent)
        else (fractionSpan + fraction, (exponent : Int) - 1075)
      let (num, den) := scaleDown mantissa 1 (-power)
      some (n >>> 63 = 1, num, den)

/-- The power of ten of the first digit of a positive fraction. -/
def leadingPower (num den : Nat) : Int :=
  if num ≥ den then (digitCount (num / den) : Int) - 1
  else
    let shift := (List.range 400).find? (fun j => num * Nat.pow 10 j ≥ den)
    0 - (shift.getD 400 : Int)

/-- Of the two decimals of `count` digits next to a fraction, those that denote the double. -/
def candidates (value : Binary64) (negative : Bool) (num den count : Nat) :
    List (Nat × Nat × Int) :=
  let power := leadingPower num den - (count - 1 : Int)
  let (pnum, pden) := tenTo power
  let a := num * pden
  let b := den * pnum
  [(a / b, a % b), (a / b + 1, b - a % b)].filterMap fun (digits, distance) =>
    if ofDecimal negative digits power = value then some (distance, digits, power) else none

def nearest : List (Nat × Nat × Int) → Option (Nat × Int)
  | [] => none
  | [(_, digits, power)] => some (digits, power)
  | (d₁, n₁, p₁) :: (d₂, n₂, p₂) :: _ =>
    if d₁ < d₂ || (d₁ = d₂ && n₁ % 2 = 0) then some (n₁, p₁) else some (n₂, p₂)

/-- The shortest decimal that denotes the double, as digits and a power of ten. -/
def shortest (value : Binary64) (negative : Bool) (num den : Nat) : Nat × Int :=
  let found := (List.range 17).findSome? fun k =>
    nearest (candidates value negative num den (k + 1))
  found.getD (0, 0)

/-- Drops zeros at the end of the digits. -/
def dropZeros : Nat → Nat → Int → Nat × Int
  | 0, digits, power => (digits, power)
  | fuel + 1, digits, power =>
    if digits ≠ 0 && digits % 10 = 0 then dropZeros fuel (digits / 10) (power + 1)
    else (digits, power)

/-- Positional notation from 0.0001 up to below 10 ^ 16, and an exponent of at least two digits
outside. -/
def layout (digits : Nat) (power : Int) : Text :=
  let text := Text.ofNat digits
  let point : Int := text.length + power
  if -4 < point && point ≤ 16 then
    if point ≤ 0 then "0." ++ List.replicate (-point).toNat (CodePoint.ofChar '0') ++ text
    else if text.length ≤ point.toNat then
      text ++ List.replicate (point.toNat - text.length) (CodePoint.ofChar '0') ++ ".0"
    else text.take point.toNat ++ "." ++ text.drop point.toNat
  else
    let exponent := point - 1
    let head : Text := if text.length ≤ 1 then text else text.take 1 ++ "." ++ text.drop 1
    let digits := Text.ofNat exponent.natAbs
    head ++ "e" ++ (if exponent < 0 then "-" else "+") ++
      (if digits.length < 2 then "0" ++ digits else digits)

/-- The text of a double. -/
def render (value : Binary64) : Text :=
  match value, value.toFraction? with
  | .nan, _ => "nan"
  | .number pattern, none => if pattern.toNat >>> 63 = 1 then "-inf" else "inf"
  | .number _, some (negative, num, den) =>
    let start : Text := if negative then "-" else ""
    if num = 0 then start ++ "0.0"
    else
      let (digits, power) := shortest value negative num den
      let (digits, power) := dropZeros 20 digits power
      start ++ layout digits power

end Callsite.Binary64
