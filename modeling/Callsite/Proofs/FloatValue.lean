import Callsite.Number.Binary64
import Mathlib.Algebra.Field.Rat
import Mathlib.Tactic.FieldSimp
import Mathlib.Tactic.Ring

/-!
# Values of floating-point patterns

A binary format says what its patterns denote. Reading a pattern of single or double precision keeps
its value, in which the two zeros differ and all NaNs are one.
-/

namespace Callsite

inductive FloatValue
  | nan
  | infinity (negative : Bool)
  | finite (negative : Bool) (magnitude : ℚ)
  deriving DecidableEq

/-- A sign bit, then the biased exponent, then the fraction. -/
structure FloatFormat where
  exponentBits : Nat
  fractionBits : Nat

namespace FloatFormat

def single : FloatFormat := ⟨8, 23⟩
def double : FloatFormat := ⟨11, 52⟩

def bias (format : FloatFormat) : Int := 2 ^ (format.exponentBits - 1) - 1

/-- What the fields denote. The largest exponent is that of infinities and NaNs; with the least one the
fraction has no leading bit. -/
def denote (format : FloatFormat) (negative : Bool) (exponent fraction : Nat) : FloatValue :=
  if exponent = 2 ^ format.exponentBits - 1 then
    if fraction = 0 then .infinity negative else .nan
  else if exponent = 0 then
    .finite negative (fraction * 2 ^ (1 - format.bias - format.fractionBits))
  else
    .finite negative ((2 ^ format.fractionBits + fraction) *
      2 ^ (exponent - format.bias - format.fractionBits))

def value (format : FloatFormat) (pattern : Nat) : FloatValue :=
  format.denote (pattern / 2 ^ (format.exponentBits + format.fractionBits) % 2 = 1)
    (pattern / 2 ^ format.fractionBits % 2 ^ format.exponentBits)
    (pattern % 2 ^ format.fractionBits)

theorem denote_single (negative : Bool) (exponent fraction : Nat) :
    single.denote negative exponent fraction =
      if exponent = 255 then if fraction = 0 then .infinity negative else .nan
      else if exponent = 0 then .finite negative (fraction * 2 ^ (-149 : ℤ))
      else .finite negative ((8388608 + fraction) * 2 ^ (exponent - 150 : ℤ)) := by
  have hscale : (exponent : ℤ) - single.bias - single.fractionBits = exponent - 150 := by
    simp only [single, bias]
    omega
  rw [denote, hscale]
  norm_num [single, bias]

theorem denote_double (negative : Bool) (exponent fraction : Nat) :
    double.denote negative exponent fraction =
      if exponent = 2047 then if fraction = 0 then .infinity negative else .nan
      else if exponent = 0 then .finite negative (fraction * 2 ^ (-1074 : ℤ))
      else .finite negative ((4503599627370496 + fraction) * 2 ^ (exponent - 1075 : ℤ)) := by
  have hscale : (exponent : ℤ) - double.bias - double.fractionBits = exponent - 1075 := by
    simp only [double, bias]
    omega
  rw [denote, hscale]
  norm_num [double, bias]

theorem value_single (pattern : Nat) : single.value pattern =
    single.denote (pattern / 0x80000000 % 2 = 1) (pattern / 0x800000 % 0x100)
      (pattern % 0x800000) := rfl

theorem value_double (pattern : Nat) : double.value pattern =
    double.denote (pattern / 0x8000000000000000 % 2 = 1) (pattern / 0x10000000000000 % 0x800)
      (pattern % 0x10000000000000) := rfl

-- ---------------------------------------------------------------------------
-- Singles among the doubles
-- ---------------------------------------------------------------------------

theorem denote_special (negative : Bool) (fraction : Nat) :
    double.denote negative 2047 (fraction * 2 ^ 29) = single.denote negative 255 fraction := by
  simp [denote_double, denote_single]

theorem denote_normal (negative : Bool) (fraction : Nat) (h : 0 < exponent ∧ exponent < 255) :
    double.denote negative (exponent + 896) (fraction * 2 ^ 29) =
      single.denote negative exponent fraction := by
  have hscale : ((exponent + 896 : Nat) : ℤ) - 1075 = (exponent - 150 : ℤ) + -29 := by omega
  rw [denote_double, denote_single, hscale, zpow_add₀ two_ne_zero]
  rw [if_neg (by omega), if_neg (by omega), if_neg (by omega), if_neg (by omega)]
  push_cast
  ring_nf

/-- A single without a leading bit has one as a double, and its exponent says where it stood. -/
theorem denote_subnormal (negative : Bool) (h : fraction ≠ 0) (hlt : fraction < 2 ^ 23) :
    double.denote negative (fraction.log2 + 874)
        ((fraction - 2 ^ fraction.log2) * 2 ^ (52 - fraction.log2)) =
      single.denote negative 0 fraction := by
  have htop : fraction.log2 < 23 := (Nat.log2_lt h).mpr hlt
  have hle : 2 ^ fraction.log2 ≤ fraction := Nat.log2_self_le h
  generalize fraction.log2 = top at htop hle ⊢
  rw [denote_double, denote_single, if_neg (by omega), if_neg (by omega), if_neg (by omega),
    if_pos rfl]
  -- with its leading bit in front, the fraction is the old one moved up
  have hlead : 4503599627370496 + (fraction - 2 ^ top) * 2 ^ (52 - top) =
      fraction * 2 ^ (52 - top) := by
    have hsplit : 4503599627370496 = 2 ^ top * 2 ^ (52 - top) := by
      rw [← pow_add, Nat.add_sub_of_le (by omega)]
      norm_num
    rw [hsplit, ← Nat.add_mul, Nat.add_sub_of_le hle]
  have hmagnitude : 4503599627370496 + (((fraction - 2 ^ top) * 2 ^ (52 - top) : Nat) : ℚ) =
      fraction * 2 ^ (52 - top) := by exact_mod_cast hlead
  have hscale : ((52 - top : Nat) : ℤ) + (((top + 874 : Nat) : ℤ) - 1075) = -149 := by omega
  rw [hmagnitude, mul_assoc, ← zpow_natCast, ← zpow_add₀ two_ne_zero, hscale]

end FloatFormat

-- ---------------------------------------------------------------------------
-- What is read
-- ---------------------------------------------------------------------------

namespace Binary64

def value : Binary64 → FloatValue
  | .nan => .nan
  | .number pattern => FloatFormat.double.value pattern.toNat

theorem value_ofFields (hsign : sign < 2) (hexponent : exponent < 0x800)
    (hfraction : fraction < 0x10000000000000) : (ofFields sign exponent fraction).value =
      FloatFormat.double.denote (sign = 1) exponent fraction := by
  rw [ofFields]
  split
  next hnan =>
    simp only [Bool.and_eq_true, decide_eq_true_eq] at hnan
    rw [FloatFormat.denote_double, if_pos hnan.1, if_neg hnan.2]
    rfl
  next =>
    have hpattern : (UInt64.ofNat (sign <<< 63 + exponent <<< 52 + fraction)).toNat =
        sign * 0x8000000000000000 + exponent * 0x10000000000000 + fraction := by
      rw [Nat.shiftLeft_eq, Nat.shiftLeft_eq]
      exact UInt64.toNat_ofNat_of_lt' (show _ < 18446744073709551616 by omega)
    rw [value, FloatFormat.value_double, hpattern]
    generalize hn : sign * 0x8000000000000000 + exponent * 0x10000000000000 + fraction = n
    have hsign' : n / 0x8000000000000000 % 2 = sign := by omega
    have hexponent' : n / 0x10000000000000 % 0x800 = exponent := by omega
    have hfraction' : n % 0x10000000000000 = fraction := by omega
    rw [hsign', hexponent', hfraction']

theorem value_ofBits (n : Nat) : (ofBits n).value = FloatFormat.double.value n := by
  have hfraction : n % fractionSpan < 0x10000000000000 := Nat.mod_lt n (by decide)
  rw [ofBits, value_ofFields (by omega) (by omega) hfraction, FloatFormat.value_double,
    Nat.shiftRight_eq_div_pow, Nat.shiftRight_eq_div_pow]
  rfl

/-- Without its leading bit, which is moved to the front, the fraction has room. -/
theorem fraction_lt (h : fraction ≠ 0) (hlt : fraction < 0x800000) :
    (fraction - 2 ^ fraction.log2) * 2 ^ (52 - fraction.log2) < 0x10000000000000 := by
  have htop : fraction.log2 < 23 := (Nat.log2_lt h).mpr hlt
  have hrest : fraction - 2 ^ fraction.log2 < 2 ^ fraction.log2 := by
    have hlog := Nat.lt_log2_self (n := fraction)
    rw [pow_succ] at hlog
    omega
  calc (fraction - 2 ^ fraction.log2) * 2 ^ (52 - fraction.log2)
      < 2 ^ fraction.log2 * 2 ^ (52 - fraction.log2) :=
        Nat.mul_lt_mul_of_pos_right hrest (Nat.two_pow_pos _)
    _ = 2 ^ 52 := by rw [← pow_add, Nat.add_sub_of_le (by omega)]

theorem value_ofSingleBits (n : Nat) :
    (ofSingleBits n).value = FloatFormat.single.value n := by
  simp only [ofSingleBits, FloatFormat.value_single, Nat.shiftRight_eq_div_pow,
    Nat.shiftLeft_eq, Nat.one_mul]
  have hsign : n / 0x80000000 % 2 < 2 := by omega
  have hexponent : n / 0x800000 % 0x100 < 0x100 := by omega
  have hfraction : n % 0x800000 < 0x800000 := by omega
  generalize n / 0x80000000 % 2 = sign at hsign ⊢
  generalize n / 0x800000 % 0x100 = exponent at hexponent ⊢
  generalize n % 0x800000 = fraction at hfraction ⊢
  split
  next hspecial =>
    rw [value_ofFields hsign (by omega) (by omega), hspecial, FloatFormat.denote_special]
  next hfinite =>
    split
    next hnormal =>
      rw [value_ofFields hsign (by omega) (by omega),
        FloatFormat.denote_normal _ _ ⟨by omega, by omega⟩]
    next hzero =>
      rw [not_not] at hzero
      subst hzero
      split
      next hnone =>
        rw [value_ofFields hsign (by omega) (by omega), hnone]
        simp [FloatFormat.denote_double, FloatFormat.denote_single]
      next hsome =>
        have htop : fraction.log2 < 23 := (Nat.log2_lt hsome).mpr hfraction
        rw [value_ofFields hsign (by omega) (fraction_lt hsome hfraction),
          FloatFormat.denote_subnormal _ hsome hfraction]

/-- The least of the singles is `2 ^ (-149)`. -/
example : ofSingleBits 1 = .number 0x36A0000000000000 := by decide

end Binary64

end Callsite
