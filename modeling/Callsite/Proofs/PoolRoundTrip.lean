import Callsite.Proofs.FloatValue
import Callsite.Proofs.PoolEncoding

/-!
# Reading written constant pools

The slots of a pool that was read from written entries hold what the entries denote, in their order,
and the slot after a constant of eight bytes is empty. Integers, indices and texts are the same as in
the entries; a floating-point number has the value of its pattern.
-/

namespace Callsite

/-- A cursor behind the first of two parts of its data. -/
def Cursor.between (front tail : List UInt8) (blame : FaultKind) : Cursor :=
  { data := (front ++ tail).toArray, offset := front.length, blame }

theorem Cursor.faces_between (front bytes tail : List UInt8) (blame : FaultKind) :
    (between front (bytes ++ tail) blame).Faces bytes := ⟨front, tail, rfl, rfl⟩

theorem Cursor.advance_between (front bytes tail : List UInt8) (blame : FaultKind) :
    (between front (bytes ++ tail) blame).advance bytes.length =
      between (front ++ bytes) tail blame := by
  simp [between, advance]

namespace PoolEntry

/-- The number of slots that an entry takes. -/
def width : PoolEntry → Nat
  | .long _ | .double _ => 2
  | _ => 1

def Denotes : PoolEntry → Constant → Prop
  | .float bits, c => ∃ number, c = .float number ∧
    number.value = FloatFormat.single.value bits.toNat
  | .double bits, c => ∃ number, c = .double number ∧
    number.value = FloatFormat.double.value bits.toNat
  | entry, c => c = entry.constant

theorem denotes_constant (entry : PoolEntry) : entry.Denotes entry.constant := by
  cases entry with
  | float bits => exact ⟨_, rfl, Binary64.value_ofSingleBits bits.toNat⟩
  | double bits => exact ⟨_, rfl, Binary64.value_ofBits bits.toNat⟩
  | _ => rfl

def slotCount : List PoolEntry → Nat
  | [] => 0
  | entry :: entries => entry.width + slotCount entries

/-- The slots hold what the entries denote, and one more is empty after each entry that takes two. -/
inductive Fills : List PoolEntry → List (Option Constant) → Prop
  | nil : Fills [] []
  | one (denotes : entry.Denotes c) (width : entry.width = 1) (rest : Fills entries filled) :
      Fills (entry :: entries) (some c :: filled)
  | two (denotes : entry.Denotes c) (width : entry.width = 2) (rest : Fills entries filled) :
      Fills (entry :: entries) (some c :: none :: filled)

theorem Fills.length (h : Fills entries filled) : filled.length = slotCount entries := by
  induction h with
  | nil => rfl
  | one denotes width rest ih => rw [List.length_cons, slotCount, width, ih, Nat.add_comm]
  | two denotes width rest ih =>
    rw [List.length_cons, List.length_cons, slotCount, width, ih, Nat.add_comm 2]

theorem fills_slots (entries : List PoolEntry) : Fills entries (entries.flatMap slots) := by
  induction entries with
  | nil => exact .nil
  | cons entry entries ih =>
    rw [List.flatMap_cons]
    have hdenotes := entry.denotes_constant
    cases entry with
    | long value => exact .two hdenotes rfl ih
    | double bits => exact .two hdenotes rfl ih
    | _ => exact .one hdenotes rfl ih

end PoolEntry

/-- Written entries are read back, wherever they stand and whatever follows them: each slot holds what
its entry denotes, and the cursor ends behind the last entry. -/
theorem ConstantPool.decode_entries (entries : List PoolEntry) (front tail : List UInt8)
    (blame : FaultKind) :
    ∃ slots, decode (1 + PoolEntry.slotCount entries : Nat)
        (.between front (entries.flatMap PoolEntry.bytes ++ tail) blame) =
          .ok ⟨(none :: slots).toArray⟩
            (.between (front ++ entries.flatMap PoolEntry.bytes) tail blame) ∧
      PoolEntry.Fills entries slots ∧ slots.length = PoolEntry.slotCount entries := by
  have hfills := PoolEntry.fills_slots entries
  have hdecode := reads_decode entries _ (Cursor.faces_between front _ tail blame)
  rw [hfills.length, Nat.add_comm, Cursor.advance_between] at hdecode
  exact ⟨_, hdecode, hfills, hfills.length⟩

end Callsite
