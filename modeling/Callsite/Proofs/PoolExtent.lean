import Callsite.Proofs.FaultKinds
import Callsite.Proofs.PoolRoundTrip

/-!
# Where a constant pool ends

Reading a pool fails only with a fault of the pool, and leaves the cursor charging what it charged
before. A pool that was read is delimited by the bytes that it took: cut anywhere before their end the
data are refused, and what stands after the end changes nothing (`decode_contained`).
-/

namespace Callsite

namespace ConstantPool

/-- The bytes between two cursors decide that a pool is read from them. -/
structure Delimited (total : Int) (c : Cursor) (pool : ConstantPool) (c' : Cursor) : Prop where
  advances : ∃ n, c' = c.advance n
  cut : ∀ k, c.offset ≤ k → k < c'.offset →
    ∃ fault c₁, decode total (c.onto (c.data.toList.take k)) = .error fault c₁ ∧
      fault.kind = .malformedConstantPool
  replaced : ∀ tail, decode total (c.onto (c.data.toList.take c'.offset ++ tail)) =
    .ok pool (c'.onto (c.data.toList.take c'.offset ++ tail))

inductive Contained (total : Int) (c : Cursor) : EStateM.Result Fault Cursor ConstantPool → Prop
  | success (blame : c'.blame = c.blame) (delimited : Delimited total c pool c') :
      Contained total c (.ok pool c')
  | failure (blame : c'.blame = c.blame) (kind : fault.kind = .malformedConstantPool) :
      Contained total c (.error fault c')

variable {c c' : Cursor}

theorem decode_one (c : Cursor) : decode 1 c = .ok ⟨#[none]⟩ c := rfl

theorem decodeConstant_inside (h : decodeConstant index c = .ok constant c') : c.Inside := by
  obtain ⟨tag, c₁, htag, -⟩ := Decoder.bind_ok.mp h
  obtain ⟨bytes, htake, -⟩ := Decoder.map_ok.mp htag
  exact (Decoder.take_ok.mp htake).2.1.inside

/-- Past the end of the data there is no pool but the empty one. -/
theorem decode_outside (hc : ¬c.Inside) (h : decode total c = .ok pool c') :
    total = 1 ∧ pool = ⟨#[none]⟩ ∧ c' = c := by
  obtain ⟨hpos, c₁, hslots, -⟩ := decode_ok h
  cases hn : total.toNat - 1 with
  | zero =>
    obtain rfl : total = 1 := by omega
    cases (decode_one c).symm.trans h
    exact ⟨rfl, rfl, rfl⟩
  | succ n =>
    rw [hn, decodeSlots] at hslots
    obtain ⟨constant, c₂, hconstant, -⟩ := Decoder.bind_ok.mp hslots
    have hinside := decodeConstant_inside hconstant
    exact absurd hinside hc

theorem delimited_decode (h : decode total c = .ok pool c') : Delimited total c pool c' := by
  by_cases hc : c.Inside
  · have hlocal := local_decode total
    refine ⟨?_, fun k hstart hend => ?_, hlocal.onto hc h⟩
    · obtain ⟨bytes, -, rfl, -⟩ := hlocal c hc pool c' h
      exact ⟨bytes.length, rfl⟩
    · cases hcut : decode total (c.onto (c.data.toList.take k)) with
      | ok pool' c₁ => exact absurd hcut (hlocal.cut hc h hstart hend)
      | error fault c₁ =>
        have hkind := (raises_decode total).kind rfl hcut
        exact ⟨fault, c₁, rfl, List.mem_singleton.mp hkind⟩
  · obtain ⟨rfl, rfl, rfl⟩ := decode_outside hc h
    exact ⟨⟨0, rfl⟩, fun k hstart hend => by omega, fun tail => decode_one _⟩

/-- However the reading of a pool ends, the cursor charges what it charged before. A failure is the
pool's fault, and a success is decided by the bytes that were taken. -/
theorem decode_contained (total : Int) (c : Cursor) : Contained total c (decode total c) := by
  have hraises := raises_decode total c rfl
  cases h : decode total c with
  | ok pool c' =>
    rw [h] at hraises
    exact .success hraises (delimited_decode h)
  | error fault c' =>
    rw [h] at hraises
    exact .failure hraises.1 (List.mem_singleton.mp hraises.2)

/-- A class entry and its name; the data are cut inside the name. -/
theorem decode_contained_className :
    let entries : List PoolEntry := [.classRef 2, .utf8 [0x41] "A" rfl (by decide)]
    let c := Cursor.between [9] (entries.flatMap PoolEntry.bytes ++ [255]) .malformedBytecode
    ∃ c', decode 3 c = .ok (ofEntries entries) c' ∧ c'.offset = 8 ∧ c'.blame = .malformedBytecode ∧
      ∃ fault c₁, decode 3 (c.onto (c.data.toList.take 7)) = .error fault c₁ ∧
        fault.kind = .malformedConstantPool := by
  intro entries c
  have h : decode 3 c = .ok (ofEntries entries) _ :=
    reads_decode entries c (Cursor.faces_between [9] _ [255] _)
  have hcontained := decode_contained 3 c
  rw [h] at hcontained
  obtain ⟨hblame, hdelimited⟩ := hcontained
  exact ⟨_, h, by decide, hblame, hdelimited.cut 7 (by decide) (by decide)⟩

end ConstantPool

end Callsite
