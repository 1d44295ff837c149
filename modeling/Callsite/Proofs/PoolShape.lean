import Callsite.Proofs.PoolRoundTrip
import Callsite.Proofs.Resolution

/-!
# The shape of a constant pool

Whatever bytes a pool was read from, a slot of it is empty exactly when it is the first or comes after a
constant of eight bytes, and such a constant is never the last (`Shaped`). Looking up an index is then
refused exactly at the empty slots and outside the pool.
-/

namespace Callsite

namespace ConstantPool

def HoldsWide (pool : ConstantPool) (i : Nat) : Prop :=
  ∃ constant, pool.slots[i]? = some (some constant) ∧
    (constant.kind = .long ∨ constant.kind = .double)

/-- A pool that is still being filled, whose last constant may lack its second slot. -/
structure Spaced (pool : ConstantPool) : Prop where
  nonempty : 0 < pool.count
  empty_iff : ∀ i < pool.count, pool.slots[i]? = some none ↔ i = 0 ∨ pool.HoldsWide (i - 1)

structure Shaped (pool : ConstantPool) : Prop extends Spaced pool where
  last : ¬pool.HoldsWide (pool.count - 1)

/-- Nothing can be read at an index. -/
def Unused (pool : ConstantPool) (index : Int) : Prop :=
  index ≤ 0 ∨ pool.count ≤ index ∨ pool.HoldsWide (index.toNat - 1)

-- ---------------------------------------------------------------------------
-- One more slot
-- ---------------------------------------------------------------------------

variable {slots : Array (Option Constant)} {slot : Option Constant}

theorem isWide_iff {constant : Constant} :
    constant.isWide ↔ constant.kind = .long ∨ constant.kind = .double := by
  simp [Constant.isWide]

theorem holdsWide_push_of_lt (h : i < slots.size) :
    HoldsWide ⟨slots.push slot⟩ i ↔ HoldsWide ⟨slots⟩ i := by
  simp [HoldsWide, Array.getElem?_push, Nat.ne_of_lt h]

theorem holdsWide_push_last : HoldsWide ⟨slots.push slot⟩ ((slots.push slot).size - 1) ↔
    ∃ constant, slot = some constant ∧ constant.isWide := by
  simp [HoldsWide, isWide_iff]

theorem Spaced.push (h : Spaced ⟨slots⟩)
    (hslot : slot = none ↔ HoldsWide ⟨slots⟩ (slots.size - 1)) : Spaced ⟨slots.push slot⟩ := by
  have hpos : 0 < slots.size := h.nonempty
  refine ⟨by simp [count], fun i hi => ?_⟩
  by_cases hnew : i = slots.size
  · subst hnew
    rw [holdsWide_push_of_lt (by omega), ← hslot]
    simp [Nat.ne_of_gt hpos]
  · simp only [count, Array.size_push] at hi
    have hlt : i < slots.size := by omega
    rw [holdsWide_push_of_lt (by omega), ← h.empty_iff i hlt]
    simp [Array.getElem?_push, hnew]

theorem Shaped.spaced_push (h : Shaped ⟨slots⟩) (constant : Constant) :
    Spaced ⟨slots.push (some constant)⟩ := by
  have hlast : ¬HoldsWide ⟨slots⟩ (slots.size - 1) := h.last
  exact h.push (by simp [hlast])

theorem Shaped.push_narrow (h : Shaped ⟨slots⟩) (hnarrow : ¬constant.isWide) :
    Shaped ⟨slots.push (some constant)⟩ := by
  refine ⟨h.spaced_push constant, fun hlast => ?_⟩
  obtain ⟨_, ⟨⟩, hwide⟩ := holdsWide_push_last.mp hlast
  exact hnarrow hwide

theorem Shaped.push_wide (h : Shaped ⟨slots⟩) (hwide : constant.isWide) :
    Shaped ⟨(slots.push (some constant)).push none⟩ := by
  refine ⟨(h.spaced_push constant).push ?_, fun hlast => ?_⟩
  · simpa only [holdsWide_push_last, true_iff] using ⟨constant, rfl, hwide⟩
  · obtain ⟨_, ⟨⟩, -⟩ := holdsWide_push_last.mp hlast

-- ---------------------------------------------------------------------------
-- All slots
-- ---------------------------------------------------------------------------

theorem shaped_start : Shaped ⟨#[none]⟩ := by
  refine ⟨⟨by simp [count], fun i hi => ?_⟩, by simp [HoldsWide, count]⟩
  obtain rfl : i = 0 := by simpa [count] using hi
  simp

theorem shaped_decodeSlots (hshaped : Shaped ⟨slots⟩) (h : decodeSlots n slots c = .ok filled c') :
    Shaped ⟨filled⟩ ∧ filled.size = slots.size + n := by
  induction n using Nat.strongRecOn generalizing slots c with
  | ind n ih =>
    cases n with
    | zero =>
      obtain ⟨rfl, -⟩ := Decoder.pure_ok.mp h
      exact ⟨hshaped, rfl⟩
    | succ n =>
      rw [decodeSlots] at h
      obtain ⟨constant, c₁, -, h⟩ := Decoder.bind_ok.mp h
      by_cases hwide : constant.isWide
      · rw [if_pos hwide] at h
        cases n with
        | zero => cases h
        | succ n =>
          obtain ⟨hfilled, hsize⟩ := ih n (by omega) (hshaped.push_wide hwide) h
          simp only [Array.size_push] at hsize
          exact ⟨hfilled, by omega⟩
      · rw [if_neg hwide] at h
        obtain ⟨hfilled, hsize⟩ := ih n (by omega) (hshaped.push_narrow hwide) h
        simp only [Array.size_push] at hsize
        exact ⟨hfilled, by omega⟩

theorem shaped_decode (h : decode total c = .ok pool c') :
    pool.Shaped ∧ (pool.count : Int) = total := by
  obtain ⟨hpos, c₁, hslots, -⟩ := decode_ok h
  obtain ⟨hshaped, hsize⟩ := shaped_decodeSlots shaped_start hslots
  have hcount : pool.count = 1 + (total.toNat - 1) := hsize
  exact ⟨hshaped, by omega⟩

-- ---------------------------------------------------------------------------
-- Look-ups
-- ---------------------------------------------------------------------------

variable {pool : ConstantPool}

/-- In a pool of the right shape every index is either unused or the place of a constant. -/
theorem Shaped.holds_iff (h : pool.Shaped) :
    (∃ constant, pool.Holds index constant) ↔ ¬pool.Unused index := by
  constructor
  · rintro ⟨constant, hpos, hslot⟩ hunused
    obtain ⟨hlt, -⟩ := Array.getElem?_eq_some_iff.mp hslot
    rcases hunused with hle | hge | hwide
    · omega
    · simp only [count] at hge
      omega
    · -- the slot after a constant of eight bytes is empty
      have hempty := (h.empty_iff index.toNat hlt).mpr (.inr hwide)
      simp [hempty] at hslot
  · intro hused
    simp only [Unused, not_or, Int.not_le] at hused
    obtain ⟨hpos, hlt, hnarrow⟩ := hused
    have hlt : index.toNat < pool.count := by omega
    have hfull : pool.slots[index.toNat]? ≠ some none := by
      rw [Ne, h.empty_iff index.toNat hlt]
      rintro (hzero | hwide)
      · omega
      · exact hnarrow hwide
    cases hslot : pool.slots[index.toNat]? with
    | none => exact absurd hlt (Nat.not_lt.mpr (Array.getElem?_eq_none_iff.mp hslot))
    | some slot =>
      cases slot with
      | none => exact absurd hslot hfull
      | some constant => exact ⟨constant, hpos, hslot⟩

/-- A pool that was read has as many slots as it was said to have, empty ones only where they belong,
and gives what a slot holds for its index and nothing for any other. -/
theorem decode_shaped (h : decode total c = .ok pool c') :
    (pool.count : Int) = total ∧ pool.Shaped ∧
    ∀ index, (Refused (pool.get index) ↔ pool.Unused index) ∧
      (¬pool.Unused index → ∃ constant, pool.slots[index.toNat]? = some (some constant) ∧
        pool.get index = .ok constant) := by
  obtain ⟨hshaped, hcount⟩ := shaped_decode h
  refine ⟨hcount, hshaped, fun index => ⟨?_, fun hused => ?_⟩⟩
  · rw [refused_iff, ← not_iff_not, ← hshaped.holds_iff]
    simp [get_ok]
  · obtain ⟨constant, hholds⟩ := hshaped.holds_iff.mpr hused
    exact ⟨constant, hholds.2, get_ok.mpr hholds⟩

/-- A Long in the middle and a Double at the end of a pool that starts at the third byte. -/
theorem decode_shaped_twoWide :
    let entries : List PoolEntry := [.classRef 4, .long 7, .double 0]
    let c := Cursor.between [9, 9] (entries.flatMap PoolEntry.bytes ++ [1]) .malformedBytecode
    ∃ pool c', decode 6 c = .ok pool c' ∧ pool.count = 6 ∧ pool.get 2 = .ok (.long 7) ∧
      Refused (pool.get 3) ∧ Refused (pool.get 5) ∧ Refused (pool.get (-2)) ∧
      Refused (pool.get 6) := by
  intro entries c
  have h : decode 6 c = .ok (ofEntries entries) _ :=
    reads_decode entries c (Cursor.faces_between [9, 9] _ [1] _)
  obtain ⟨hcount, -, hindex⟩ := decode_shaped h
  refine ⟨_, _, h, Int.ofNat_inj.mp hcount, rfl, (hindex 3).1.mpr ?_, (hindex 5).1.mpr ?_,
    (hindex (-2)).1.mpr ?_, (hindex 6).1.mpr ?_⟩
  · exact .inr (.inr ⟨.long 7, rfl, .inl rfl⟩)
  · exact .inr (.inr ⟨.double (.ofBits 0), rfl, .inr rfl⟩)
  · exact .inl (by decide)
  · exact .inr (.inl (by decide))

end ConstantPool

end Callsite
