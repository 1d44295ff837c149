import Callsite.Proofs.CodeCuts

/-!
# Joining code arrays

The address of an instruction enters its decoding only through the padding of a switch, which depends
on the address modulo four. So lines may be moved to any address of the same alignment, and behind a
code array of whole words another one decodes as it does alone, but for the addresses
(`decodeCode_append`).
-/

namespace Callsite

/-- The instruction `n` bytes further on. -/
def Instruction.shift (n : Nat) (i : Instruction) : Instruction := { i with address := i.address + n }

-- ---------------------------------------------------------------------------
-- Moved lines
-- ---------------------------------------------------------------------------

namespace Line

variable {pool : ConstantPool} {a b : Nat}

theorem aligned_move (h : b % 4 = a % 4) (aligned : (a + 1 + n) % 4 = 0) : (b + 1 + n) % 4 = 0 := by
  omega

/-- The same line at another address of the same alignment. -/
def move (h : b % 4 = a % 4) : Line pool a → Line pool b
  | .plain op operands isPlain size => .plain op operands isPlain size
  | .field op index reference isField resolves => .field op index reference isField resolves
  | .call op index reference isCall resolves => .call op index reference isCall resolves
  | .interfaceCall index reference count counts resolves =>
    .interfaceCall index reference count counts resolves
  | .dynamicCall index bootstrap name descriptor resolves =>
    .dynamicCall index bootstrap name descriptor resolves
  | .tableSwitch padding default low high offsets short aligned size ordered =>
    .tableSwitch padding default low high offsets short (aligned_move h aligned) size ordered
  | .lookupSwitch padding default pairs short aligned fits =>
    .lookupSwitch padding default pairs short (aligned_move h aligned) fits
  | .wide inner operands widens size => .wide inner operands widens size

@[simp] theorem bytes_move (h : b % 4 = a % 4) (line : Line pool a) :
    (line.move h).bytes = line.bytes := by
  cases line <;> rfl

theorem instruction_move (h : b % 4 = a % 4) (hb : b = a + n) (line : Line pool a) :
    (line.move h).instruction = line.instruction.shift n := by
  subst hb
  cases line <;> rfl

end Line

namespace Program

variable {pool : ConstantPool} {a b : Nat}

theorem exists_moved (program : Program pool a) (h : b % 4 = a % 4) :
    ∃ moved : Program pool b, moved.bytes = program.bytes ∧
      ∀ n, b = a + n → moved.instructions = program.instructions.map (Instruction.shift n) := by
  induction program generalizing b with
  | done => exact ⟨.done, rfl, fun _ _ => rfl⟩
  | line first rest ih =>
    -- the line keeps its length, so what follows it is moved as far as it is
    obtain ⟨moved, hbytes, hmoved⟩ := ih (b := b + (first.move h).bytes.length) (by simp; omega)
    refine ⟨.line (first.move h) moved, by simp [bytes, hbytes], ?_⟩
    rintro n rfl
    simp [instructions, first.instruction_move h rfl, hmoved n (by simp; omega)]

-- ---------------------------------------------------------------------------
-- Joined and parted programs
-- ---------------------------------------------------------------------------

theorem exists_joined (front : Program pool a) (back : Program pool b)
    (hb : b = a + front.bytes.length) :
    ∃ program : Program pool a, program.bytes = front.bytes ++ back.bytes ∧
      program.instructions = front.instructions ++ back.instructions := by
  induction front with
  | done =>
    obtain rfl : b = _ := hb
    exact ⟨back, rfl, rfl⟩
  | line first rest ih =>
    obtain ⟨program, hbytes, hinstructions⟩ := ih (by simpa [bytes, Nat.add_assoc] using hb)
    refine ⟨.line first program, ?_, ?_⟩
    · simp [bytes, hbytes]
    · simp [instructions, hinstructions]

/-- A program can be parted between any two of its instructions. -/
theorem exists_parted (program : Program pool a) (h : program.instructions = xs ++ ys) :
    ∃ front : Program pool a, ∃ b, ∃ back : Program pool b, b = a + front.bytes.length ∧
      program.bytes = front.bytes ++ back.bytes ∧ front.instructions = xs := by
  induction program generalizing xs with
  | done =>
    obtain ⟨rfl, rfl⟩ := List.append_eq_nil_iff.mp h.symm
    exact ⟨.done, _, .done, rfl, rfl, rfl⟩
  | line first rest ih =>
    cases xs with
    | nil => exact ⟨.done, _, .line first rest, rfl, rfl, rfl⟩
    | cons x xs =>
      obtain ⟨rfl, hrest⟩ := List.cons.inj h
      obtain ⟨front, b, back, rfl, hbytes, rfl⟩ := ih hrest
      refine ⟨.line first front, _, back, ?_, ?_, rfl⟩
      · simp [bytes, Nat.add_assoc]
      · simp [bytes, hbytes]

/-- Programs with the same instructions are equally long. -/
theorem length_bytes_eq (front front' : Program pool a)
    (h : front.instructions = front'.instructions) : front.bytes.length = front'.bytes.length := by
  have hdrop : Tiles (a + front.bytes.length) [] (a + front'.bytes.length) :=
    front.tiles.drop (by simpa [h] using front'.tiles)
  exact Nat.add_left_cancel hdrop

/-- What follows the bytes of a program in a longer one is a program, too. -/
theorem exists_back (front program : Program pool 0) (h : program.bytes = front.bytes ++ rest) :
    ∃ b, ∃ back : Program pool b, b = front.bytes.length ∧ back.bytes = rest := by
  have hprefix : front.bytes <+: program.bytes := ⟨rest, h.symm⟩
  have hfaces : (Cursor.ofBytes program.bytes).Faces front.bytes := Cursor.faces_ofBytes.mpr hprefix
  obtain ⟨ys, hys⟩ := front.instructions_prefix program (Cursor.offset_ofBytes ..)
    (Cursor.offset_ofBytes ..) hfaces (Cursor.faces_ofBytes.mpr (List.prefix_refl _))
    hprefix.length_le
  obtain ⟨front', b, back, hb, hbytes, hsame⟩ := program.exists_parted hys.symm
  have hlength := front'.length_bytes_eq front hsame
  obtain ⟨-, rfl⟩ := List.append_inj (hbytes.symm.trans h) hlength
  exact ⟨b, back, by omega, rfl⟩

end Program

-- ---------------------------------------------------------------------------
-- Code arrays
-- ---------------------------------------------------------------------------

/-- The instructions of a code array behind one of whole words are shifted by its length. -/
theorem decodeCode_joined (ha : decodeCode pool a = .ok front) (hwords : 4 ∣ a.length)
    (hb : decodeCode pool b = .ok back) :
    decodeCode pool (a ++ b) = .ok (front ++ back.map (Instruction.shift a.length)) := by
  obtain ⟨front, rfl, rfl⟩ := decodeCode_eq_ok.mp ha
  obtain ⟨back, rfl, rfl⟩ := decodeCode_eq_ok.mp hb
  obtain ⟨moved, hbytes, hmoved⟩ := back.exists_moved (Nat.mod_eq_zero_of_dvd hwords)
  obtain ⟨program, hprogram, hinstructions⟩ := front.exists_joined moved (Nat.zero_add _).symm
  refine decodeCode_eq_ok.mpr ⟨program, ?_, ?_⟩
  · rw [hprogram, hbytes]
  · rw [hinstructions, hmoved _ (Nat.zero_add _).symm]

theorem exists_decodeCode_back (ha : decodeCode pool a = .ok front) (hwords : 4 ∣ a.length)
    (h : decodeCode pool (a ++ b) = .ok ops) : ∃ back, decodeCode pool b = .ok back := by
  obtain ⟨front, rfl, rfl⟩ := decodeCode_eq_ok.mp ha
  obtain ⟨program, hprogram, rfl⟩ := decodeCode_eq_ok.mp h
  obtain ⟨_, back, rfl, rfl⟩ := front.exists_back program hprogram
  obtain ⟨moved, hbytes, -⟩ := back.exists_moved (b := 0) (Nat.mod_eq_zero_of_dvd hwords).symm
  exact ⟨_, decodeCode_eq_ok.mpr ⟨moved, hbytes, rfl⟩⟩

/-- Behind a code array of whole words another one decodes exactly when it does alone, and to the same
instructions, shifted; if it does not, both ways the bytecode is malformed. -/
theorem decodeCode_append (ha : decodeCode pool a = .ok front) (hwords : 4 ∣ a.length)
    (b : List UInt8) :
    ((∃ ops, decodeCode pool (a ++ b) = .ok ops) ↔ ∃ back, decodeCode pool b = .ok back) ∧
    (∀ back, decodeCode pool b = .ok back →
      decodeCode pool (a ++ b) = .ok (front ++ back.map (Instruction.shift a.length))) ∧
    ((¬∃ back, decodeCode pool b = .ok back) →
      ∃ fault fault', decodeCode pool (a ++ b) = .error fault ∧ decodeCode pool b = .error fault' ∧
        fault.kind = .malformedBytecode ∧ fault'.kind = .malformedBytecode) := by
  have hback : ∀ ops, decodeCode pool (a ++ b) = .ok ops → ∃ back, decodeCode pool b = .ok back :=
    fun ops => exists_decodeCode_back ha hwords
  refine ⟨⟨?_, ?_⟩, fun back => decodeCode_joined ha hwords, ?_⟩
  · rintro ⟨ops, hops⟩
    exact hback ops hops
  · rintro ⟨back, hb⟩
    exact ⟨_, decodeCode_joined ha hwords hb⟩
  · intro hfails
    cases hjoined : decodeCode pool (a ++ b) with
    | ok ops => exact absurd (hback ops hjoined) hfails
    | error fault =>
      cases hb : decodeCode pool b with
      | ok back => exact absurd ⟨back, hb⟩ hfails
      | error fault' => exact ⟨fault, fault', rfl, rfl, decodeCode_fault hjoined, decodeCode_fault hb⟩

/-- Behind four bytes a switch has the padding that it has alone. -/
theorem decodeCode_append_lookupSwitch :
    let code := [0x00, 0xAB, 7, 7, 0, 0, 0, 0, 0, 0, 0, 0]
    decodeCode ⟨#[none]⟩ ([0xC4, 0x15, 0, 1] ++ code) =
      .ok [{ opcode := Opcode.wide, address := 0, length := 4 },
        { opcode := 0x00, address := 4, length := 1 },
        { opcode := Opcode.lookupSwitch, address := 5, length := 11 }] := by
  intro code
  have ha : decodeCode ⟨#[none]⟩ [0xC4, 0x15, 0, 1] =
      .ok [{ opcode := Opcode.wide, address := 0, length := 4 }] := by decide +kernel
  have hb : decodeCode ⟨#[none]⟩ code = .ok [{ opcode := 0x00, address := 0, length := 1 },
      { opcode := Opcode.lookupSwitch, address := 1, length := 11 }] := by decide +kernel
  exact (decodeCode_append ha (by decide) code).2.1 _ hb

/-- Behind two bytes it has none, and ends earlier. -/
example :
    decodeCode ⟨#[none]⟩ ([0x00, 0x00] ++ [0x00, 0xAB, 7, 7, 0, 0, 0, 0, 0, 0, 0, 0]) =
      .ok [{ opcode := 0x00, address := 0, length := 1 }, { opcode := 0x00, address := 1, length := 1 },
        { opcode := 0x00, address := 2, length := 1 },
        { opcode := Opcode.lookupSwitch, address := 3, length := 9 },
        { opcode := 0x00, address := 12, length := 1 },
        { opcode := 0x00, address := 13, length := 1 }] := by
  decide +kernel

end Callsite
