import Callsite.Proofs.CodeArray

/-!
# Accepted code arrays

What a decoded code array looks like from its bytes alone. The instructions tile it, and each of them
has the length, the fixed bytes and the reference that the bytes at its address call for
(`decodeCode_accepted`). Lengths are computed here by position, without a cursor.
-/

namespace Callsite

/-- Instructions in a row that fill the range between two offsets. -/
def Tiles : Nat → List Instruction → Nat → Prop
  | start, [], stop => start = stop
  | start, i :: rest, stop =>
    i.address = start ∧ 1 ≤ i.length ∧ Tiles (start + i.length) rest stop

/-- The field of a width at an offset. -/
def fieldAt (code : List UInt8) (offset width : Nat) : List UInt8 := (code.drop offset).take width

namespace Opcode

/-- The length of a switch or of a widened instruction, from the bytes at its address. -/
def computedLength? (op : Opcode) (code : List UInt8) (address : Nat) : Option Nat :=
  -- the operands of a switch start at the first multiple of four after the opcode
  let start := (address / 4 + 1) * 4
  if op = tableSwitch then
    let low := intOfBytes (fieldAt code (start + 4) 4)
    let high := intOfBytes (fieldAt code (start + 8) 4)
    if low ≤ high then some (start + 12 + 4 * (high - low + 1).toNat - address) else none
  else if op = lookupSwitch then
    let count := intOfBytes (fieldAt code (start + 4) 4)
    if 0 ≤ count then some (start + 8 + 8 * count.toNat - address) else none
  else if op = wide then
    (ofByte? (natOfBytes (fieldAt code (address + 1) 1))).bind fun inner =>
      if inner.isWidenable then some (if inner = iinc then 6 else 4) else none
  else none

/-- The kinds of constants that the index of an instruction may name. -/
def referenceKinds (op : Opcode) : List ConstantKind :=
  if op.isField then [.fieldRef]
  else if op = invokeInterface then [.interfaceMethodRef]
  else [.methodRef, .interfaceMethodRef]

/-- The member that the index of a call or field access names. -/
def reference (op : Opcode) (pool : ConstantPool) (index : Nat) :
    Except PoolFault MemberReference :=
  if op = invokeDynamic then
    (pool.invokeDynamic index).map fun (_, name, descriptor) =>
      { owner := "java/lang/Object", name, descriptor }
  else pool.memberReference index op.referenceKinds

end Opcode

/-- An instruction as the bytes at its address call for it. -/
structure Accepted (pool : ConstantPool) (code : List UInt8) (i : Instruction) : Prop where
  opcode : fieldAt code i.address 1 = [i.opcode.byte]
  fixedLength : i.opcode.isVariableLength = false → i.opcode.fixedLength? = some i.length
  computedLength : i.opcode.isVariableLength →
    i.opcode.computedLength? code i.address = some i.length
  interfaceBytes : i.opcode = Opcode.invokeInterface →
    ∃ count : UInt8, count ≠ 0 ∧ fieldAt code (i.address + 3) 2 = [count, 0]
  dynamicBytes : i.opcode = Opcode.invokeDynamic → fieldAt code (i.address + 3) 2 = [0, 0]
  call : i.opcode.isInvoke → ∃ r, i.call? = some r ∧
    i.opcode.reference pool (natOfBytes (fieldAt code (i.address + 1) 2)) = .ok r
  field : i.opcode.isField → ∃ r, i.field? = some r ∧
    i.opcode.reference pool (natOfBytes (fieldAt code (i.address + 1) 2)) = .ok r
  other : i.opcode.isInvoke = false → i.opcode.isField = false → i.operand = .none

-- ---------------------------------------------------------------------------
-- Tables
-- ---------------------------------------------------------------------------

namespace Opcode

/-- The table of operand sizes agrees with the index that is read. -/
theorem isField_table (op : Opcode) : op.isField → op.operandSize = 2 ∧
    op.isVariableLength = false ∧ op.referenceKinds = [.fieldRef] := by
  revert op
  decide +kernel

theorem isPlainCall_table (op : Opcode) : op.isPlainCall → op.operandSize = 2 ∧
    op.isVariableLength = false ∧ op.isField = false ∧
    op.referenceKinds = [.methodRef, .interfaceMethodRef] := by
  revert op
  decide +kernel

theorem isPlain_fixed (op : Opcode) : op.isPlain → op.isVariableLength = false := by
  revert op
  decide +kernel

end Opcode

-- ---------------------------------------------------------------------------
-- Lines in their place
-- ---------------------------------------------------------------------------

theorem fieldAt_eq (front cell tail : List UInt8) (h : code = front ++ (cell ++ tail))
    (hk : front.length = k) (hw : cell.length = w) : fieldAt code k w = cell := by
  simp [fieldAt, h, ← hk, ← hw]

namespace Line

variable {pool : ConstantPool} {address : Nat}

/-- The bytes of a line stand at its address. -/
def At (line : Line pool address) (code : List UInt8) : Prop :=
  ∃ front tail, front.length = address ∧ code = front ++ (line.bytes ++ tail)

theorem fixedLength (line : Line pool address) (h : line.opcode.isVariableLength = false) :
    line.opcode.fixedLength? = some line.bytes.length := by
  cases line with
  | plain op operands hop hs =>
    simp only [Line.opcode] at h ⊢
    simp [Opcode.fixedLength?, h, bytes, Line.operands, hs, Nat.add_comm]
  | field op index reference hop hr =>
    obtain ⟨hs, hv, -⟩ := op.isField_table hop
    simp [Opcode.fixedLength?, Line.opcode, hv, hs, bytes, Line.operands]
  | call op index reference hop hr =>
    obtain ⟨hs, hv, -⟩ := op.isPlainCall_table hop
    simp [Opcode.fixedLength?, Line.opcode, hv, hs, bytes, Line.operands]
  | interfaceCall | dynamicCall => rfl
  | tableSwitch | lookupSwitch | wide => cases h

/-- Where the operands of a switch start. -/
theorem switch_start {padding : List UInt8} (hn : padding.length < 4)
    (ha : (address + 1 + padding.length) % 4 = 0) :
    (address / 4 + 1) * 4 = address + 1 + padding.length := by
  omega

theorem computedLength (line : Line pool address) (hat : line.At code)
    (h : line.opcode.isVariableLength) :
    line.opcode.computedLength? code address = some line.bytes.length := by
  obtain ⟨front, tail, hf, hcode⟩ := hat
  cases line with
  | tableSwitch padding default low high offsets hn ha hs hle =>
    have hstart := switch_start hn ha
    have hlow : fieldAt code ((address / 4 + 1) * 4 + 4) 4 = field4 low.toUInt32 :=
      fieldAt_eq (front ++ (Opcode.tableSwitch.byte :: padding) ++ field4 default) _
        (field4 high.toUInt32 ++ (offsets.flatMap field4 ++ tail))
        (by simp [hcode, bytes, Line.operands, Line.opcode]) (by simp; omega) (by simp)
    have hhigh : fieldAt code ((address / 4 + 1) * 4 + 8) 4 = field4 high.toUInt32 :=
      fieldAt_eq (front ++ (Opcode.tableSwitch.byte :: padding) ++ field4 default ++
          field4 low.toUInt32) _ (offsets.flatMap field4 ++ tail)
        (by simp [hcode, bytes, Line.operands, Line.opcode]) (by simp; omega) (by simp)
    have hl : (offsets.flatMap field4).length = 4 * offsets.length :=
      length_flatMap_of_const fun w _ => length_field4 w
    simp only [Opcode.computedLength?, Line.opcode, if_true, hlow, hhigh, intOfBytes_field4, hle]
    simp [bytes, Line.operands, hl]
    omega
  | lookupSwitch padding default pairs hn ha hl =>
    have hstart := switch_start hn ha
    have hcount : fieldAt code ((address / 4 + 1) * 4 + 4) 4 = field4 (UInt32.ofNat pairs.length) :=
      fieldAt_eq (front ++ (Opcode.lookupSwitch.byte :: padding) ++ field4 default) _
        (pairs.flatMap fieldPair ++ tail)
        (by simp [hcode, bytes, Line.operands, Line.opcode]) (by simp; omega) (by simp)
    have hi : intOfBytes (field4 (UInt32.ofNat pairs.length)) = pairs.length :=
      (intOfBytes_field4 (UInt32.ofNat pairs.length).toInt32).trans (toInt_ofNat hl)
    have hp : (pairs.flatMap fieldPair).length = 8 * pairs.length :=
      length_flatMap_of_const fun p _ => length_fieldPair p
    have hne : Opcode.lookupSwitch ≠ Opcode.tableSwitch := by decide
    simp only [Opcode.computedLength?, Line.opcode, hne, if_true, if_false, hcount, hi]
    simp [bytes, Line.operands, hp]
    omega
  | wide inner operands hw hs =>
    have hinner : fieldAt code (address + 1) 1 = [inner.byte] :=
      fieldAt_eq (front ++ [Opcode.wide.byte]) _ (operands ++ tail)
        (by simp [hcode, bytes, Line.operands, Line.opcode]) (by simp; omega) (by simp)
    have hop : Opcode.ofByte? inner.byte.toNat = some inner := Opcode.ofByte?_eq_some.mpr rfl
    have ht : Opcode.wide ≠ Opcode.tableSwitch := by decide
    have hl : Opcode.wide ≠ Opcode.lookupSwitch := by decide
    simp only [Opcode.computedLength?, Line.opcode, ht, hl, if_true, if_false, hinner,
      natOfBytes_singleton, hop, Option.bind_some, hw]
    simp only [bytes, Line.operands, List.length_cons, hs]
    split <;> rfl
  | plain op operands hop hs =>
    simp [Line.opcode, op.isPlain_fixed hop] at h
  | field op index reference hop hr =>
    simp [Line.opcode, op.isField_table hop] at h
  | call op index reference hop hr =>
    simp [Line.opcode, op.isPlainCall_table hop] at h
  | interfaceCall | dynamicCall => cases h

theorem index_at (line : Line pool address) (hat : line.At code) (index : UInt16)
    (more : List UInt8) (h : line.operands = field2 index ++ more) :
    fieldAt code (address + 1) 2 = field2 index := by
  obtain ⟨front, tail, hf, hcode⟩ := hat
  exact fieldAt_eq (front ++ [line.opcode.byte]) _ (more ++ tail) (by simp [hcode, bytes, h])
    (by simp; omega) (by simp)

theorem bytes_after_index (line : Line pool address) (hat : line.At code)
    (h : line.operands = field2 index ++ [a, b]) : fieldAt code (address + 3) 2 = [a, b] := by
  obtain ⟨front, tail, hf, hcode⟩ := hat
  exact fieldAt_eq (front ++ (line.opcode.byte :: field2 index)) _ tail
    (by simp [hcode, bytes, h]) (by simp; omega) (by simp)

theorem call_resolves (line : Line pool address) (hat : line.At code) (h : line.opcode.isInvoke) :
    ∃ r, line.operand.call? = some r ∧
      line.opcode.reference pool (natOfBytes (fieldAt code (address + 1) 2)) = .ok r := by
  cases line with
  | call op index reference hop hr =>
    obtain ⟨-, -, hd⟩ := op.isPlainCall_iff.mp hop
    obtain ⟨-, -, -, hk⟩ := op.isPlainCall_table hop
    refine ⟨reference, rfl, ?_⟩
    rw [index_at _ hat index [] (by simp [operands]), natOfBytes_field2, Line.opcode,
      Opcode.reference, if_neg hd, hk, hr]
  | interfaceCall index reference count hn hr =>
    refine ⟨reference, rfl, ?_⟩
    rw [index_at _ hat index [count, 0] rfl, natOfBytes_field2]
    exact hr
  | dynamicCall index bootstrap name descriptor hr =>
    refine ⟨_, rfl, ?_⟩
    rw [index_at _ hat index [0, 0] rfl, natOfBytes_field2, Line.opcode, Opcode.reference,
      if_pos rfl, hr]
    rfl
  | plain op operands hop hs => simp [Line.opcode, op.isPlain_dispatch hop] at h
  | field op index reference hop hr => simp [Line.opcode, op.isField_dispatch hop] at h
  | tableSwitch | lookupSwitch | wide => cases h

theorem field_resolves (line : Line pool address) (hat : line.At code) (h : line.opcode.isField) :
    ∃ r, line.operand.field? = some r ∧
      line.opcode.reference pool (natOfBytes (fieldAt code (address + 1) 2)) = .ok r := by
  cases line with
  | field op index reference hop hr =>
    obtain ⟨-, hd, -⟩ := op.isField_dispatch hop
    obtain ⟨-, -, hk⟩ := op.isField_table hop
    refine ⟨reference, rfl, ?_⟩
    rw [index_at _ hat index [] (by simp [operands]), natOfBytes_field2, Line.opcode,
      Opcode.reference, if_neg hd, hk, hr]
  | plain op operands hop hs => simp [Line.opcode, op.isPlain_dispatch hop] at h
  | call op index reference hop hr => simp [Line.opcode, op.isPlainCall_table hop] at h
  | interfaceCall | dynamicCall | tableSwitch | lookupSwitch | wide => cases h

theorem accepted (line : Line pool address) (hat : line.At code) :
    Accepted pool code line.instruction where
  opcode := by
    obtain ⟨front, tail, hf, hcode⟩ := hat
    exact fieldAt_eq front _ (line.operands ++ tail) (by simp [hcode, bytes]; rfl) hf rfl
  fixedLength := line.fixedLength
  computedLength := line.computedLength hat
  interfaceBytes := by
    intro h
    cases line with
    | interfaceCall index reference count hn hr => exact ⟨count, hn, bytes_after_index _ hat rfl⟩
    | plain op operands hop hs => exact absurd h (op.isPlain_dispatch hop).1
    | field op index reference hop hr => exact absurd h (op.isField_dispatch hop).1
    | call op index reference hop hr => exact absurd h (op.isPlainCall_iff.mp hop).2.1
    | dynamicCall | tableSwitch | lookupSwitch | wide => cases h
  dynamicBytes := by
    intro h
    cases line with
    | dynamicCall index bootstrap name descriptor hr => exact bytes_after_index _ hat rfl
    | plain op operands hop hs => exact absurd h (op.isPlain_dispatch hop).2.1
    | field op index reference hop hr => exact absurd h (op.isField_dispatch hop).2.1
    | call op index reference hop hr => exact absurd h (op.isPlainCall_iff.mp hop).2.2
    | interfaceCall | tableSwitch | lookupSwitch | wide => cases h
  call := line.call_resolves hat
  field := line.field_resolves hat
  other := by
    intro hi hf
    cases line with
    | plain | tableSwitch | lookupSwitch | wide => rfl
    | field op index reference hop hr => exact absurd (hop.symm.trans hf) (by decide)
    | call op index reference hop hr =>
      exact absurd ((op.isPlainCall_iff.mp hop).1.symm.trans hi) (by decide)
    | interfaceCall | dynamicCall => cases hi

end Line

-- ---------------------------------------------------------------------------
-- Programs
-- ---------------------------------------------------------------------------

namespace Program

variable {pool : ConstantPool}

theorem tiles (program : Program pool address) :
    Tiles address program.instructions (address + program.bytes.length) := by
  induction program with
  | done => rfl
  | line first rest ih =>
    refine ⟨rfl, by simp [Line.instruction, Line.bytes], ?_⟩
    rw [bytes, List.length_append, ← Nat.add_assoc]
    exact ih

/-- Every instruction of a program comes from a line in its place. -/
theorem exists_line (program : Program pool address) (front : List UInt8)
    (hf : front.length = address) (h : i ∈ program.instructions) :
    ∃ a, ∃ line : Line pool a, line.instruction = i ∧ line.At (front ++ program.bytes) := by
  induction program generalizing front with
  | done => simp [instructions] at h
  | @line address first rest ih =>
    rcases List.mem_cons.mp h with rfl | h
    · exact ⟨address, first, rfl, front, rest.bytes, hf, rfl⟩
    · have hrest := ih (front ++ first.bytes) (by simp [hf]) h
      simpa [bytes] using hrest

end Program

/-- Decoding always ends within as many rounds as there are bytes. If it ends well, the instructions
tile the code array and each is what the bytes at its address call for. -/
theorem decodeCode_accepted (pool : ConstantPool) (code : List UInt8) :
    (∃ n, n ≤ code.length ∧
      Loop pool (Cursor.ofBytes code .malformedBytecode) n (decodeCode pool code)) ∧
    ∀ ops, decodeCode pool code = .ok ops →
      Tiles 0 ops code.length ∧ ∀ i ∈ ops, Accepted pool code i := by
  refine ⟨exists_loop_decodeCode pool code, ?_⟩
  intro ops h
  obtain ⟨program, rfl, rfl⟩ := decodeCode_eq_ok.mp h
  refine ⟨by simpa using program.tiles, ?_⟩
  intro i hi
  obtain ⟨_, line, rfl, hat⟩ := program.exists_line [] rfl hi
  exact line.accepted hat

/-- A call of an interface method, a switch with two bytes of padding, a widened increment and a
return. -/
theorem decodeCode_accepted_switch :
    let pool : ConstantPool := ⟨#[none, some (.utf8 "A"), some (.classRef 1), some (.utf8 "m"),
      some (.utf8 "()V"), some (.nameAndType 3 4), some (.interfaceMethodRef 2 5)]⟩
    let code := [0xB9, 0, 6, 1, 0, 0xAA, 7, 7, 0, 0, 0, 0, 0, 0, 0, 9, 0, 0, 0, 9, 0, 0, 0, 0,
      0xC4, 0x84, 0, 1, 0, 2, 0xB1]
    ∃ ops, decodeCode pool code = .ok ops ∧ ops.length = 4 ∧ Tiles 0 ops 31 ∧
      ∀ i ∈ ops, Accepted pool code i := by
  intro pool code
  have h : decodeCode pool code = .ok
      [{ opcode := Opcode.invokeInterface, address := 0, length := 5,
         operand := .interfaceMethod { owner := "A", name := "m", descriptor := "()V" } 1 },
       { opcode := Opcode.tableSwitch, address := 5, length := 19 },
       { opcode := Opcode.wide, address := 24, length := 6 },
       { opcode := 0xB1, address := 30, length := 1 }] := by
    decide +kernel
  exact ⟨_, h, rfl, (decodeCode_accepted pool code).2 _ h⟩

end Callsite
