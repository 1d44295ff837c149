import Callsite.Proofs.FaultKinds
import Callsite.Proofs.Layout

/-!
# Cutting code arrays

Instructions are a prefix code: of two programs in the same place the shorter one is the start of the
longer one. So a code array that decodes can be cut only where an instruction ends, and the front then
decodes to the instructions that end in it (`decodeCode_cut`).
-/

namespace Callsite

/-- The offset behind an instruction. -/
def Instruction.stop (i : Instruction) : Nat := i.address + i.length

/-- The start of a code array or the end of one of its instructions. -/
def Boundary (ops : List Instruction) (k : Nat) : Prop := k = 0 ∨ ∃ i ∈ ops, i.stop = k

-- ---------------------------------------------------------------------------
-- Tilings
-- ---------------------------------------------------------------------------

namespace Tiles

theorem le (h : Tiles start ops stop) : start ≤ stop := by
  induction ops generalizing start with
  | nil => exact Nat.le_of_eq h
  | cons i rest ih =>
    obtain ⟨-, -, hrest⟩ := h
    exact Nat.le_trans (Nat.le_add_right ..) (ih hrest)

theorem stop_range (h : Tiles start ops stop) (hi : i ∈ ops) : start < i.stop ∧ i.stop ≤ stop := by
  induction ops generalizing start with
  | nil => cases hi
  | cons j rest ih =>
    obtain ⟨rfl, hpos, hrest⟩ := h
    rcases List.mem_cons.mp hi with rfl | hi
    · exact ⟨Nat.lt_add_of_pos_right hpos, hrest.le⟩
    · obtain ⟨hlt, hle⟩ := ih hrest hi
      exact ⟨by omega, hle⟩

theorem drop (hfront : Tiles start front mid) (h : Tiles start (front ++ back) stop) :
    Tiles mid back stop := by
  induction front generalizing start with
  | nil =>
    obtain rfl : start = mid := hfront
    exact h
  | cons i rest ih => exact ih hfront.2.2 h.2.2

theorem exists_last (h : Tiles start ops stop) : stop = start ∨ ∃ i ∈ ops, i.stop = stop := by
  induction ops generalizing start with
  | nil => exact .inl h.symm
  | cons i rest ih =>
    obtain ⟨rfl, -, hrest⟩ := h
    rcases ih hrest with rfl | ⟨j, hj, hstop⟩
    · exact .inr ⟨i, by simp, rfl⟩
    · exact .inr ⟨j, by simp [hj], hstop⟩

/-- Of a tiling, the instructions that end in a front are the front. -/
theorem filter_front (hfront : Tiles start front mid) (h : Tiles start (front ++ back) stop) :
    (front ++ back).filter (fun i => i.stop ≤ mid) = front := by
  have hin : ∀ i ∈ front, i.stop ≤ mid := fun i hi => (hfront.stop_range hi).2
  have hout : ∀ i ∈ back, ¬i.stop ≤ mid := fun i hi =>
    Nat.not_le.mpr ((hfront.drop h).stop_range hi).1
  rw [List.filter_append, List.filter_eq_self.mpr (by simpa using hin),
    List.filter_eq_nil_iff.mpr (by simpa using hout), List.append_nil]

end Tiles

-- ---------------------------------------------------------------------------
-- Programs in the same place
-- ---------------------------------------------------------------------------

theorem Line.unique {c : Cursor} (line line' : Line pool c.offset) (h : c.Faces line.bytes)
    (h' : c.Faces line'.bytes) :
    line.instruction = line'.instruction ∧ line.bytes.length = line'.bytes.length :=
  have hdecode := Instruction.parses_decode pool
  Decoder.run_unique (hdecode.run ⟨line, rfl, rfl⟩ h) (hdecode.run ⟨line', rfl, rfl⟩ h')

namespace Program

variable {pool : ConstantPool} {c : Cursor}

/-- The lines of two programs at one cursor agree as far as both go. -/
theorem instructions_prefix (front : Program pool a) (program : Program pool b) (ha : c.offset = a)
    (hb : c.offset = b) (hfront : c.Faces front.bytes) (hprogram : c.Faces program.bytes)
    (hle : front.bytes.length ≤ program.bytes.length) :
    front.instructions <+: program.instructions := by
  induction front generalizing b c with
  | done => exact List.nil_prefix
  | line first rest ih =>
    cases program with
    | done => simp [bytes, Line.bytes] at hle
    | line first' rest' =>
      subst ha hb
      obtain ⟨hfirst, hrest⟩ := Cursor.faces_append.mp hfront
      obtain ⟨hfirst', hrest'⟩ := Cursor.faces_append.mp hprogram
      obtain ⟨hsame, hlength⟩ := first.unique first' hfirst hfirst'
      -- both first lines are of one length, so the rests stand at one cursor again
      have hcursor : c.advance first.bytes.length = c.advance first'.bytes.length := by rw [hlength]
      rw [hcursor] at hrest
      simp only [bytes, List.length_append] at hle
      rw [instructions, instructions, hsame, List.cons_prefix_cons]
      exact ⟨rfl, ih rest' (by simp [hlength]) rfl hrest hrest' (by omega)⟩

/-- Every instruction of a program ends a program. -/
theorem exists_front (program : Program pool address) (h : i ∈ program.instructions) :
    ∃ front : Program pool address, front.bytes <+: program.bytes ∧
      address + front.bytes.length = i.stop := by
  induction program with
  | done => simp [instructions] at h
  | line first rest ih =>
    rcases List.mem_cons.mp h with rfl | h
    · refine ⟨.line first .done, ?_, ?_⟩
      · simp [bytes]
      · simp [bytes, Instruction.stop, Line.instruction]
    · obtain ⟨front, hprefix, hstop⟩ := ih h
      refine ⟨.line first front, ?_, ?_⟩
      · simpa [bytes] using hprefix
      · rw [bytes, List.length_append, ← Nat.add_assoc, hstop]

end Program

/-- The front of a code array decodes only if it ends with an instruction, and then to the instructions
that end in it. -/
theorem decodeCode_front (h : decodeCode pool code = .ok ops) (hk : k ≤ code.length)
    (hfront : decodeCode pool (code.take k) = .ok kept) :
    Boundary ops k ∧ kept = ops.filter fun i => i.stop ≤ k := by
  obtain ⟨program, rfl, rfl⟩ := decodeCode_eq_ok.mp h
  obtain ⟨front, hbytes, rfl⟩ := decodeCode_eq_ok.mp hfront
  have hlength : front.bytes.length = k := by simp [hbytes, hk]
  have hfaces : (Cursor.ofBytes program.bytes).Faces front.bytes :=
    Cursor.faces_ofBytes.mpr (hbytes ▸ List.take_prefix k program.bytes)
  obtain ⟨back, hback⟩ := front.instructions_prefix program (Cursor.offset_ofBytes ..)
    (Cursor.offset_ofBytes ..) hfaces (Cursor.faces_ofBytes.mpr (List.prefix_refl _)) (by omega)
  have htiles : Tiles 0 front.instructions k := by simpa [hlength] using front.tiles
  have hall : Tiles 0 (front.instructions ++ back) program.bytes.length := by
    simpa [hback] using program.tiles
  constructor
  · rcases htiles.exists_last with hzero | ⟨i, hi, hstop⟩
    · exact .inl hzero
    · exact .inr ⟨i, by simp [← hback, hi], hstop⟩
  · rw [← hback, htiles.filter_front hall]

theorem exists_decodeCode_take (h : decodeCode pool code = .ok ops) (hk : Boundary ops k) :
    ∃ kept, decodeCode pool (code.take k) = .ok kept := by
  obtain ⟨program, rfl, rfl⟩ := decodeCode_eq_ok.mp h
  rcases hk with rfl | ⟨i, hi, rfl⟩
  · exact ⟨_, decodeCode_eq_ok.mpr ⟨.done, rfl, rfl⟩⟩
  · obtain ⟨front, hprefix, hstop⟩ := program.exists_front hi
    refine ⟨_, decodeCode_eq_ok.mpr ⟨front, ?_, rfl⟩⟩
    rw [← hstop, Nat.zero_add]
    exact List.prefix_iff_eq_take.mp hprefix

/-- A code array can be cut where an instruction ends and nowhere else. -/
theorem decodeCode_cut (h : decodeCode pool code = .ok ops) (hk : k ≤ code.length) :
    ((∃ kept, decodeCode pool (code.take k) = .ok kept) ↔ Boundary ops k) ∧
    (∀ kept, decodeCode pool (code.take k) = .ok kept → kept = ops.filter fun i => i.stop ≤ k) ∧
    (¬Boundary ops k → ∃ fault, decodeCode pool (code.take k) = .error fault ∧
      fault.kind = .malformedBytecode) := by
  refine ⟨⟨?_, exists_decodeCode_take h⟩, fun kept hkept => (decodeCode_front h hk hkept).2, ?_⟩
  · rintro ⟨kept, hkept⟩
    exact (decodeCode_front h hk hkept).1
  · intro hcut
    cases hrun : decodeCode pool (code.take k) with
    | ok kept => exact absurd (decodeCode_front h hk hrun).1 hcut
    | error fault => exact ⟨fault, rfl, decodeCode_fault hrun⟩

/-- A switch can be cut before its opcode, and neither in its padding nor in its table. -/
theorem decodeCode_cut_lookupSwitch :
    let code := [0x00, 0xAB, 7, 7, 0, 0, 0, 0, 0, 0, 0, 1, 0, 0, 0, 5, 0, 0, 0, 9]
    ∃ ops, decodeCode ⟨#[none]⟩ code = .ok ops ∧
      (∃ kept, decodeCode ⟨#[none]⟩ (code.take 1) = .ok kept) ∧
      ∀ k, 1 < k → k < 20 → ∃ fault, decodeCode ⟨#[none]⟩ (code.take k) = .error fault ∧
        fault.kind = .malformedBytecode := by
  intro code
  have h : decodeCode ⟨#[none]⟩ code = .ok [{ opcode := 0x00, address := 0, length := 1 },
      { opcode := Opcode.lookupSwitch, address := 1, length := 19 }] := by
    decide +kernel
  refine ⟨_, h, ?_, fun k hlow hhigh => ?_⟩
  · exact (decodeCode_cut h (by decide)).1.mpr (.inr ⟨_, List.mem_cons_self, rfl⟩)
  · refine (decodeCode_cut h (Nat.le_of_lt hhigh)).2.2 ?_
    simp [Boundary, Instruction.stop]
    omega

end Callsite
