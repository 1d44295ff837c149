import Callsite.ClassFile.Cursor
import Mathlib.Data.List.Induction

/-!
# Big-endian fields

`bigEndian` writes a number into a field of a given width. Reading the field gives the number back
when it fits, and every list of bytes is the field of the number that it spells.
-/

namespace Callsite

/-- The last `width` bytes of a number, the most significant first. -/
def bigEndian : Nat → Nat → List UInt8
  | 0, _ => []
  | width + 1, n => bigEndian width (n / 256) ++ [UInt8.ofNat n]

def field2 (n : UInt16) : List UInt8 := bigEndian 2 n.toNat
def field4 (n : UInt32) : List UInt8 := bigEndian 4 n.toNat
def field8 (n : UInt64) : List UInt8 := bigEndian 8 n.toNat

@[simp] theorem length_bigEndian (width n : Nat) : (bigEndian width n).length = width := by
  induction width generalizing n with
  | zero => rfl
  | succ width ih => simp [bigEndian, ih]

@[simp] theorem length_field2 (n : UInt16) : (field2 n).length = 2 := length_bigEndian ..
@[simp] theorem length_field4 (n : UInt32) : (field4 n).length = 4 := length_bigEndian ..
@[simp] theorem length_field8 (n : UInt64) : (field8 n).length = 8 := length_bigEndian ..

theorem natOfBytes_concat (bytes : List UInt8) (b : UInt8) :
    natOfBytes (bytes ++ [b]) = natOfBytes bytes * 256 + b.toNat := by
  simp [natOfBytes]

@[simp] theorem natOfBytes_singleton (b : UInt8) : natOfBytes [b] = b.toNat := by
  simp [natOfBytes]

theorem natOfBytes_bigEndian (h : n < Nat.pow 256 width) : natOfBytes (bigEndian width n) = n := by
  induction width generalizing n with
  | zero =>
    have hn : n = 0 := by simpa using h
    simp [hn, bigEndian, natOfBytes]
  | succ width ih =>
    have hs : n / 256 < Nat.pow 256 width :=
      Nat.div_lt_of_lt_mul (by rw [Nat.mul_comm]; exact h)
    rw [bigEndian, natOfBytes_concat, ih hs, UInt8.toNat_ofNat']
    omega

theorem natOfBytes_lt (bytes : List UInt8) : natOfBytes bytes < Nat.pow 256 bytes.length := by
  induction bytes using List.reverseRecOn with
  | nil => decide
  | append_singleton bytes b ih =>
    have hb : b.toNat < 256 := b.toNat_lt
    have hp : Nat.pow 256 (bytes.length + 1) = Nat.pow 256 bytes.length * 256 := rfl
    rw [natOfBytes_concat, List.length_append, List.length_singleton, hp]
    omega

theorem bigEndian_natOfBytes (bytes : List UInt8) :
    bigEndian bytes.length (natOfBytes bytes) = bytes := by
  induction bytes using List.reverseRecOn with
  | nil => rfl
  | append_singleton bytes b ih =>
    have hb : b.toNat < 256 := b.toNat_lt
    have hd : (natOfBytes bytes * 256 + b.toNat) / 256 = natOfBytes bytes := by omega
    have hm : UInt8.ofNat (natOfBytes bytes * 256 + b.toNat) = b := by
      apply UInt8.toNat_inj.mp
      rw [UInt8.toNat_ofNat']
      omega
    rw [natOfBytes_concat, List.length_append, List.length_singleton, bigEndian, hd, ih, hm]

-- ---------------------------------------------------------------------------
-- Words
-- ---------------------------------------------------------------------------

@[simp] theorem natOfBytes_field2 (n : UInt16) : natOfBytes (field2 n) = n.toNat :=
  natOfBytes_bigEndian n.toNat_lt

@[simp] theorem natOfBytes_field4 (n : UInt32) : natOfBytes (field4 n) = n.toNat :=
  natOfBytes_bigEndian n.toNat_lt

@[simp] theorem natOfBytes_field8 (n : UInt64) : natOfBytes (field8 n) = n.toNat :=
  natOfBytes_bigEndian n.toNat_lt

theorem exists_field2 (h : bytes.length = 2) : ∃ n : UInt16, bytes = field2 n := by
  have hn : natOfBytes bytes < 65536 := by simpa [h] using natOfBytes_lt bytes
  refine ⟨UInt16.ofNat (natOfBytes bytes), ?_⟩
  rw [field2, UInt16.toNat_ofNat_of_lt' hn, ← h, bigEndian_natOfBytes]

theorem exists_field4 (h : bytes.length = 4) : ∃ n : UInt32, bytes = field4 n := by
  have hn : natOfBytes bytes < 4294967296 := by simpa [h] using natOfBytes_lt bytes
  refine ⟨UInt32.ofNat (natOfBytes bytes), ?_⟩
  rw [field4, UInt32.toNat_ofNat_of_lt' hn, ← h, bigEndian_natOfBytes]

theorem toInt_eq_cond (n : Int32) :
    n.toInt = if 2 * n.toUInt32.toNat < 4294967296 then (n.toUInt32.toNat : Int)
      else n.toUInt32.toNat - 4294967296 :=
  BitVec.toInt_eq_toNat_cond n.toBitVec

theorem intOfBytes_field4 (n : Int32) : intOfBytes (field4 n.toUInt32) = n.toInt := by
  rw [toInt_eq_cond]
  simp only [intOfBytes, natOfBytes_field4, length_field4]
  rfl

/-- A small number reads the same with and without a sign. -/
theorem toInt_ofNat (h : n < 0x80000000) : (UInt32.ofNat n).toInt32.toInt = n := by
  have hn : (UInt32.ofNat n).toNat = n := UInt32.toNat_ofNat_of_lt' (Nat.lt_trans h (by decide))
  rw [toInt_eq_cond, UInt32.toUInt32_toInt32, hn, if_pos (by omega)]

theorem intOfBytes_field8 (n : Int64) : intOfBytes (field8 n.toUInt64) = n.toInt := by
  have hi : n.toInt = if 2 * n.toUInt64.toNat < 18446744073709551616 then (n.toUInt64.toNat : Int)
      else n.toUInt64.toNat - 18446744073709551616 := BitVec.toInt_eq_toNat_cond n.toBitVec
  simp only [intOfBytes, natOfBytes_field8, length_field8]
  exact hi.symm

-- ---------------------------------------------------------------------------
-- Tables of words
-- ---------------------------------------------------------------------------

theorem length_flatMap_of_const (h : ∀ x ∈ xs, (f x).length = width) :
    (List.flatMap f xs : List UInt8).length = width * xs.length := by
  induction xs with
  | nil => rfl
  | cons x xs ih =>
    rw [List.flatMap_cons, List.length_append, h x (by simp),
      ih fun y hy => h y (List.mem_cons_of_mem _ hy), List.length_cons, Nat.mul_succ, Nat.add_comm]

/-- Bytes that fill a number of cells of one width are a table of such cells. -/
theorem exists_table {f : α → List UInt8}
    (hf : ∀ cell : List UInt8, cell.length = width → ∃ x, cell = f x)
    (hl : bytes.length = width * count) :
    ∃ xs : List α, xs.length = count ∧ bytes = xs.flatMap f := by
  induction count generalizing bytes with
  | zero =>
    have hn : bytes = [] := List.eq_nil_of_length_eq_zero (by simpa using hl)
    exact ⟨[], rfl, hn⟩
  | succ count ih =>
    rw [Nat.mul_succ] at hl
    obtain ⟨x, hx⟩ := hf (bytes.take width) (by simp; omega)
    obtain ⟨xs, hc, hxs⟩ := ih (show (bytes.drop width).length = width * count by simp; omega)
    refine ⟨x :: xs, by simp [hc], ?_⟩
    rw [List.flatMap_cons, ← hx, ← hxs, List.take_append_drop]

/-- Two words in a row. -/
def fieldPair (pair : UInt32 × UInt32) : List UInt8 := field4 pair.1 ++ field4 pair.2

@[simp] theorem length_fieldPair (pair : UInt32 × UInt32) : (fieldPair pair).length = 8 := by
  simp [fieldPair]

theorem exists_fieldPair (h : bytes.length = 8) : ∃ pair, bytes = fieldPair pair := by
  obtain ⟨a, ha⟩ := exists_field4 (show (bytes.take 4).length = 4 by simp; omega)
  obtain ⟨b, hb⟩ := exists_field4 (show (bytes.drop 4).length = 4 by simp; omega)
  exact ⟨(a, b), by rw [fieldPair, ← ha, ← hb, List.take_append_drop]⟩

end Callsite
