/-!
# Binary floating point

IEEE 754 doubles by their bit pattern. A single-precision number is held as the double of the same
value, and all NaNs are one.
-/

namespace Callsite

inductive Binary64
  | nan
  | number (pattern : UInt64)
  deriving DecidableEq, Repr

namespace Binary64

/-- The bits of the fraction are the low 52. -/
def fractionSpan : Nat := 0x10000000000000

/-- The double with the given sign, biased exponent and fraction of 52 bits. -/
def ofFields (sign exponent fraction : Nat) : Binary64 :=
  if exponent = 0x7FF && fraction ≠ 0 then .nan
  else .number (UInt64.ofNat (sign <<< 63 + exponent <<< 52 + fraction))

def ofBits (n : Nat) : Binary64 :=
  ofFields (n >>> 63 % 2) (n >>> 52 % 0x800) (n % fractionSpan)

/-- The double that has the value of a single-precision bit pattern. Every single is exact as a
double; the tiny ones lose their leading zeros. -/
def ofSingleBits (n : Nat) : Binary64 :=
  let sign := n >>> 31 % 2
  let exponent := n >>> 23 % 0x100
  let fraction := n % 0x800000
  if exponent = 0xFF then ofFields sign 0x7FF (fraction <<< 29)
  else if exponent ≠ 0 then ofFields sign (exponent + 896) (fraction <<< 29)
  else if fraction = 0 then ofFields sign 0 0
  else
    let top := fraction.log2
    ofFields sign (top + 874) ((fraction - 1 <<< top) <<< (52 - top))

end Binary64

end Callsite
