import Callsite.Proofs.Assembly

/-!
# The decoder follows the grammar

`parses_decode`: an instruction is decoded exactly where the bytes of a `Line` come next, and it is
the instruction of that line. The proof goes through the parts of the decoder; each lemma says what
its part takes.
-/

namespace Callsite

-- ---------------------------------------------------------------------------
-- Opcodes
-- ---------------------------------------------------------------------------

namespace Opcode

theorem ofByte?_eq_some {b : UInt8} : ofByte? b.toNat = some op ↔ op.byte = b := by
  have hop : op.val < 202 := op.isLt
  simp only [ofByte?, byte, ← UInt8.toNat_inj, UInt8.toNat_ofNat']
  split
  · simp only [Option.some.injEq, Fin.ext_iff]
    omega
  · simp only [reduceCtorEq, false_iff]
    omega

theorem isPlainCall_iff (op : Opcode) :
    op.isPlainCall ↔ op.isInvoke ∧ op ≠ invokeInterface ∧ op ≠ invokeDynamic := by
  revert op
  decide +kernel

theorem isField_dispatch (op : Opcode) :
    op.isField → op ≠ invokeInterface ∧ op ≠ invokeDynamic ∧ op.isInvoke = false := by
  revert op
  decide +kernel

theorem isPlain_dispatch (op : Opcode) :
    op.isPlain → op ≠ invokeInterface ∧ op ≠ invokeDynamic ∧ op.isInvoke = false ∧
      op.isField = false ∧ op ≠ tableSwitch ∧ op ≠ lookupSwitch ∧ op ≠ wide := by
  revert op
  decide +kernel

/-- Every opcode has one of the forms of a line. -/
theorem form_cases (op : Opcode) :
    op.isPlain ∨ op.isField ∨ op.isPlainCall ∨ op = invokeInterface ∨ op = invokeDynamic ∨
      op = tableSwitch ∨ op = lookupSwitch ∨ op = wide := by
  revert op
  decide +kernel

theorem switchPadding_eq {address n : Nat} (hn : n < 4) :
    switchPadding address = n ↔ (address + 1 + n) % 4 = 0 := by
  unfold switchPadding
  omega

end Opcode

namespace Instruction

open Decoder

variable {pool : ConstantPool} {op : Opcode} {address : Nat} {operand : Operand} {c c' : Cursor}

theorem parses_finish : Parses (finish op address operand) fun n bytes i =>
    bytes = [] ∧ { opcode := op, address, length := n - address, operand } = i := by
  refine (parses_offset.bind fun n => parses_pure _).congr fun n bytes i => ⟨?_, ?_⟩
  · rintro ⟨_, _, _, rfl, ⟨rfl, rfl⟩, rfl, rfl⟩
    exact ⟨rfl, rfl⟩
  · rintro ⟨rfl, rfl⟩
    exact ⟨n, [], [], rfl, ⟨rfl, rfl⟩, rfl, rfl⟩

theorem parses_resolving (r : Except PoolFault α) :
    Parses (resolving op address r) fun _ bytes a => bytes = [] ∧ r = .ok a := by
  cases r with
  | ok b => exact (parses_pure b).congr (by simp)
  | error e => exact (parses_throw _).congr (by simp)

-- ---------------------------------------------------------------------------
-- Instructions without a reference
-- ---------------------------------------------------------------------------

theorem parses_skipSwitchHead : Parses (skipSwitchHead address) fun _ bytes _ =>
    ∃ padding default, padding.length < 4 ∧ (address + 1 + padding.length) % 4 = 0 ∧
      padding ++ field4 default = bytes := by
  refine ((parses_skip _).bind fun _ => parses_skip 4).congr fun n bytes u => ⟨?_, ?_⟩
  · rintro ⟨_, padding, word, rfl, hp, hw⟩
    have hn : padding.length < 4 := by
      unfold Opcode.switchPadding at hp
      omega
    have hl : word.length = 4 := by omega
    obtain ⟨default, rfl⟩ := exists_field4 hl
    exact ⟨padding, default, hn, (Opcode.switchPadding_eq hn).mp hp.symm, rfl⟩
  · rintro ⟨padding, default, hn, ha, rfl⟩
    exact ⟨(), padding, field4 default, rfl, ((Opcode.switchPadding_eq hn).mpr ha).symm, by simp⟩

theorem parses_skipTableSwitch : Parses (skipTableSwitch address) fun _ bytes _ =>
    ∃ padding default, ∃ low high : Int32, ∃ table, padding.length < 4 ∧
      (address + 1 + padding.length) % 4 = 0 ∧ low.toInt ≤ high.toInt ∧
      (table.length : Int) = 4 * (high.toInt - low.toInt + 1) ∧
      padding ++ field4 default ++ field4 low.toUInt32 ++ field4 high.toUInt32 ++ table = bytes := by
  refine (parses_skipSwitchHead.bind fun _ => parses_s4.bind fun low => parses_s4.bind fun high =>
    (parses_skip _).guard _).congr fun n bytes u => ⟨?_, ?_⟩
  · rintro ⟨_, _, _, rfl, ⟨padding, default, hn, ha, rfl⟩, _, _, _, rfl, ⟨low, rfl, rfl⟩, _, _,
      table, rfl, ⟨high, rfl, rfl⟩, hle, ht⟩
    exact ⟨padding, default, low, high, table, hn, ha, by omega, ht, by simp⟩
  · rintro ⟨padding, default, low, high, table, hn, ha, hle, ht, rfl⟩
    exact ⟨(), padding ++ field4 default, field4 low.toUInt32 ++ (field4 high.toUInt32 ++ table),
      by simp, ⟨padding, default, hn, ha, rfl⟩, low.toInt, _, _, rfl, ⟨low, rfl, rfl⟩,
      high.toInt, _, _, rfl, ⟨high, rfl, rfl⟩, by omega, ht⟩

theorem parses_skipLookupSwitch : Parses (skipLookupSwitch address) fun _ bytes _ =>
    ∃ padding default, ∃ count : Int32, ∃ table, padding.length < 4 ∧
      (address + 1 + padding.length) % 4 = 0 ∧ 0 ≤ count.toInt ∧
      (table.length : Int) = 8 * count.toInt ∧
      padding ++ field4 default ++ field4 count.toUInt32 ++ table = bytes := by
  refine (parses_skipSwitchHead.bind fun _ => parses_s4.bind fun count =>
    (parses_skip _).guard _).congr fun n bytes u => ⟨?_, ?_⟩
  · rintro ⟨_, _, _, rfl, ⟨padding, default, hn, ha, rfl⟩, _, _, table, rfl, ⟨count, rfl, rfl⟩,
      hle, ht⟩
    exact ⟨padding, default, count, table, hn, ha, by omega, ht, by simp⟩
  · rintro ⟨padding, default, count, table, hn, ha, hle, ht, rfl⟩
    exact ⟨(), padding ++ field4 default, field4 count.toUInt32 ++ table, by simp,
      ⟨padding, default, hn, ha, rfl⟩, count.toInt, _, _, rfl, ⟨count, rfl, rfl⟩, by omega, ht⟩

theorem parses_skipWide : Parses (skipWide address) fun _ bytes _ =>
    ∃ inner operands, inner.isWidenable ∧
      operands.length = (if inner = Opcode.iinc then 4 else 2) ∧
      inner.byte :: operands = bytes := by
  unfold skipWide
  refine (Parses.bind (H := fun (byte : Nat) _ bytes _ => ∃ inner, Opcode.ofByte? byte = some inner ∧
    inner.isWidenable ∧ (bytes.length : Int) = if inner = Opcode.iinc then 4 else 2)
    parses_u1 fun byte => ?_).congr fun n bytes u => ⟨?_, ?_⟩
  · split
    · rename_i inner hi
      split
      · rename_i hw
        exact (parses_skip _).congr (by simp [hi, hw])
      · rename_i hw
        exact (parses_throw _).congr (by simp [hi, hw])
    · rename_i hi
      exact (parses_throw _).congr (by simp [hi])
  · rintro ⟨_, _, operands, rfl, ⟨b, rfl, rfl⟩, inner, hi, hw, ho⟩
    obtain rfl := Opcode.ofByte?_eq_some.mp hi
    exact ⟨inner, operands, hw, by split at ho <;> simp_all <;> omega, rfl⟩
  · rintro ⟨inner, operands, hw, ho, rfl⟩
    exact ⟨inner.byte.toNat, [inner.byte], operands, rfl, ⟨_, rfl, rfl⟩, inner,
      Opcode.ofByte?_eq_some.mpr rfl, hw, by rw [ho]; split <;> rfl⟩

-- ---------------------------------------------------------------------------
-- Instructions with a reference
-- ---------------------------------------------------------------------------

/-- An index, and what it stands for in the pool. -/
theorem parses_indexed (look : Nat → Except PoolFault α) (make : α → Operand) :
    Parses (do
      let index ← u2
      let a ← resolving op address (look index)
      finish op address (make a)) fun n bytes i =>
    ∃ index : UInt16, ∃ a, look index.toNat = .ok a ∧ field2 index = bytes ∧
      { opcode := op, address, length := n + bytes.length - address, operand := make a } = i := by
  refine (parses_u2.bind fun index => (parses_resolving (look index)).bind fun a =>
    parses_finish).congr fun n bytes i => ⟨?_, ?_⟩
  · rintro ⟨_, _, _, rfl, ⟨index, rfl, rfl⟩, a, _, _, rfl, ⟨rfl, hr⟩, rfl, rfl⟩
    exact ⟨index, a, hr, by simp, by simp⟩
  · rintro ⟨index, a, hr, rfl, rfl⟩
    exact ⟨index.toNat, field2 index, [], by simp, ⟨index, rfl, rfl⟩, a, [], [], rfl, ⟨rfl, hr⟩,
      rfl, by simp⟩

theorem parses_decodeInterfaceCall : Parses (decodeInterfaceCall pool op address) fun n bytes i =>
    ∃ index : UInt16, ∃ reference, ∃ count : UInt8, count ≠ 0 ∧
      pool.memberReference index.toNat [.interfaceMethodRef] = .ok reference ∧
      field2 index ++ [count, 0] = bytes ∧
      { opcode := op, address, length := n + bytes.length - address,
        operand := .interfaceMethod reference count.toNat } = i := by
  refine (parses_u2.bind fun index => parses_u1.bind fun count => parses_u1.bind fun padding =>
    (((parses_resolving _).bind fun reference => parses_finish).guard _).guard _).congr
    fun n bytes i => ⟨?_, ?_⟩
  · rintro ⟨_, _, _, rfl, ⟨index, rfl, rfl⟩, _, _, _, rfl, ⟨count, rfl, rfl⟩, _, _, _, rfl,
      ⟨padding, rfl, rfl⟩, hcount, hpadding, reference, _, _, rfl, ⟨rfl, hr⟩, rfl, rfl⟩
    have hc : count ≠ 0 := by
      rintro rfl
      exact hcount rfl
    have hp : padding = 0 := UInt8.toNat_inj.mp (by simpa using hpadding)
    subst hp
    exact ⟨index, reference, count, hc, hr, by simp, by simp [Nat.add_assoc]⟩
  · rintro ⟨index, reference, count, hc, hr, rfl, rfl⟩
    have hcount : count.toNat ≠ 0 := fun h => hc (UInt8.toNat_inj.mp h)
    exact ⟨index.toNat, field2 index, [count, 0], rfl, ⟨index, rfl, rfl⟩, count.toNat, [count], [0],
      rfl, ⟨count, rfl, rfl⟩, 0, [0], [], rfl, ⟨0, rfl, rfl⟩, hcount, by simp, reference, [], [],
      rfl, ⟨rfl, hr⟩, rfl, by simp [Nat.add_assoc]⟩

theorem parses_decodeDynamicCall : Parses (decodeDynamicCall pool op address) fun n bytes i =>
    ∃ index : UInt16, ∃ bootstrap name descriptor,
      pool.invokeDynamic index.toNat = .ok (bootstrap, name, descriptor) ∧
      field2 index ++ [0, 0] = bytes ∧
      { opcode := op, address, length := n + bytes.length - address,
        operand := .dynamicCall { owner := dynamicOwner, name, descriptor } bootstrap } = i := by
  have hfinish : ∀ found : Nat × Text × Text, Parses (finish op address
      (.dynamicCall { owner := dynamicOwner, name := found.2.1, descriptor := found.2.2 } found.1))
      _ := fun _ => parses_finish
  refine (parses_u2.bind fun index => parses_u2.bind fun padding =>
    ((parses_resolving _).bind hfinish).guard _).congr fun n bytes i => ⟨?_, ?_⟩
  · rintro ⟨_, _, _, rfl, ⟨index, rfl, rfl⟩, _, _, _, rfl, ⟨padding, rfl, rfl⟩, hpadding,
      ⟨bootstrap, name, descriptor⟩, _, _, rfl, ⟨rfl, hr⟩, rfl, rfl⟩
    have hp : padding = 0 := UInt16.toNat_inj.mp (by simpa using hpadding)
    subst hp
    exact ⟨index, bootstrap, name, descriptor, hr, rfl, by simp [Nat.add_assoc]⟩
  · rintro ⟨index, bootstrap, name, descriptor, hr, rfl, rfl⟩
    exact ⟨index.toNat, field2 index, [0, 0], rfl, ⟨index, rfl, rfl⟩, 0, [0, 0], [], rfl,
      ⟨0, rfl, rfl⟩, by simp, (bootstrap, name, descriptor), [], [], rfl, ⟨rfl, hr⟩, rfl,
      by simp [Nat.add_assoc]⟩

-- ---------------------------------------------------------------------------
-- One instruction
-- ---------------------------------------------------------------------------

theorem decodeOperands_field (h : op.isField) :
    decodeOperands pool op address = decodeField pool op address := by
  obtain ⟨hi, hd, hinvoke⟩ := op.isField_dispatch h
  simp [decodeOperands, hi, hd, hinvoke, h]

theorem decodeOperands_call (h : op.isPlainCall) :
    decodeOperands pool op address = decodeCall pool op address := by
  obtain ⟨hinvoke, hi, hd⟩ := op.isPlainCall_iff.mp h
  simp [decodeOperands, hi, hd, hinvoke]

theorem decodeOperands_plain (h : op.isPlain) : decodeOperands pool op address =
    (do Decoder.skip op.operandSize; finish op address) := by
  obtain ⟨hi, hd, hinvoke, hf, ht, hl, hw⟩ := op.isPlain_dispatch h
  simp [decodeOperands, hi, hd, hinvoke, hf, ht, hl, hw]

theorem parses_skipped {d : Decoder Unit} {P : List UInt8 → Prop}
    (hd : Parses d fun _ bytes _ => P bytes) :
    Parses (do d; finish op address) fun n bytes i =>
      P bytes ∧ { opcode := op, address, length := n + bytes.length - address } = i := by
  refine (hd.bind fun _ => parses_finish).congr fun n bytes i => ⟨?_, ?_⟩
  · rintro ⟨_, front, _, rfl, hp, rfl, rfl⟩
    simpa using hp
  · rintro ⟨hp, rfl⟩
    exact ⟨(), bytes, [], by simp, hp, rfl, rfl⟩

/-- The instruction of a line whose operands stand at an offset. -/
def ofLine (line : Line pool address) (n : Nat) : Instruction :=
  { opcode := line.opcode, address, length := n + line.operands.length - address,
    operand := line.operand }

/-- The decoder takes the operands of every line. -/
theorem decodeOperands_line (line : Line pool address) (hfaces : c.Faces line.operands) :
    decodeOperands pool line.opcode address c =
      .ok (ofLine line c.offset) (c.advance line.operands.length) := by
  cases line with
  | plain op operands hop hs =>
    simp only [Line.opcode, decodeOperands_plain hop]
    exact (parses_skipped (parses_skip _)).run ⟨by simp [Line.operands, hs], rfl⟩ hfaces
  | field op index reference hop hr =>
    simp only [Line.opcode, decodeOperands_field hop]
    exact (parses_indexed _ _).run ⟨index, reference, hr, rfl, rfl⟩ hfaces
  | call op index reference hop hr =>
    simp only [Line.opcode, decodeOperands_call hop]
    exact (parses_indexed _ _).run ⟨index, reference, hr, rfl, rfl⟩ hfaces
  | interfaceCall index reference count hn hr =>
    exact parses_decodeInterfaceCall.run
      ⟨index, reference, count, hn, hr, rfl, rfl⟩ hfaces
  | dynamicCall index bootstrap name descriptor hr =>
    exact parses_decodeDynamicCall.run
      ⟨index, bootstrap, name, descriptor, hr, rfl, rfl⟩ hfaces
  | tableSwitch padding default low high offsets hn ha hs hle =>
    have ht : ((offsets.flatMap field4).length : Int) = 4 * (high.toInt - low.toInt + 1) := by
      rw [length_flatMap_of_const fun w _ => length_field4 w]
      omega
    exact (parses_skipped parses_skipTableSwitch).run
      ⟨⟨padding, default, low, high, offsets.flatMap field4, hn, ha, hle, ht, rfl⟩, rfl⟩ hfaces
  | lookupSwitch padding default pairs hn ha hl =>
    have hi := toInt_ofNat hl
    have ht : ((pairs.flatMap fieldPair).length : Int) =
        8 * (UInt32.ofNat pairs.length).toInt32.toInt := by
      rw [length_flatMap_of_const fun p _ => length_fieldPair p, hi]
      omega
    exact (parses_skipped parses_skipLookupSwitch).run
      ⟨⟨padding, default, (UInt32.ofNat pairs.length).toInt32, pairs.flatMap fieldPair, hn, ha,
        by omega, ht, rfl⟩, rfl⟩ hfaces
  | wide inner operands hw hs =>
    exact (parses_skipped parses_skipWide).run ⟨⟨inner, operands, hw, hs, rfl⟩, rfl⟩ hfaces

/-- What the decoder takes after an opcode are the operands of a line. -/
theorem line_of_decodeOperands (hc : c.Inside) (h : decodeOperands pool op address c = .ok i c') :
    ∃ line : Line pool address, line.opcode = op ∧ c.Faces line.operands ∧
      ofLine line c.offset = i ∧ c.advance line.operands.length = c' := by
  rcases op.form_cases with hop | hop | hop | rfl | rfl | rfl | rfl | rfl
  · rw [decodeOperands_plain hop] at h
    obtain ⟨operands, ⟨hs, rfl⟩, hfaces, rfl⟩ := (parses_skipped (parses_skip _) c hc _ _).mp h
    exact ⟨.plain op operands hop (by omega), rfl, hfaces, rfl, rfl⟩
  · rw [decodeOperands_field hop] at h
    obtain ⟨_, ⟨index, reference, hr, rfl, rfl⟩, hfaces, rfl⟩ := (parses_indexed _ _ c hc _ _).mp h
    exact ⟨.field op index reference hop hr, rfl, hfaces, rfl, rfl⟩
  · rw [decodeOperands_call hop] at h
    obtain ⟨_, ⟨index, reference, hr, rfl, rfl⟩, hfaces, rfl⟩ := (parses_indexed _ _ c hc _ _).mp h
    exact ⟨.call op index reference hop hr, rfl, hfaces, rfl, rfl⟩
  · obtain ⟨_, ⟨index, reference, count, hn, hr, rfl, rfl⟩, hfaces, rfl⟩ :=
      (parses_decodeInterfaceCall c hc _ _).mp h
    exact ⟨.interfaceCall index reference count hn hr, rfl, hfaces, rfl, rfl⟩
  · obtain ⟨_, ⟨index, bootstrap, name, descriptor, hr, rfl, rfl⟩, hfaces, rfl⟩ :=
      (parses_decodeDynamicCall c hc _ _).mp h
    exact ⟨.dynamicCall index bootstrap name descriptor hr, rfl, hfaces, rfl, rfl⟩
  · obtain ⟨_, ⟨⟨padding, default, low, high, table, hn, ha, hle, ht, rfl⟩, rfl⟩, hfaces, rfl⟩ :=
      (parses_skipped parses_skipTableSwitch c hc _ _).mp h
    obtain ⟨offsets, hl, rfl⟩ := exists_table (fun _ => exists_field4)
      (show table.length = 4 * (high.toInt - low.toInt + 1).toNat by omega)
    exact ⟨.tableSwitch padding default low high offsets hn ha (by omega) hle, rfl, hfaces, rfl, rfl⟩
  · obtain ⟨_, ⟨⟨padding, default, count, table, hn, ha, hle, ht, rfl⟩, rfl⟩, hfaces, rfl⟩ :=
      (parses_skipped parses_skipLookupSwitch c hc _ _).mp h
    obtain ⟨pairs, hl, rfl⟩ := exists_table (fun _ => exists_fieldPair)
      (show table.length = 8 * count.toInt.toNat by omega)
    -- a count that is not negative reads the same as a signed and as an unsigned word
    have hi := toInt_eq_cond count
    have hlt : count.toUInt32.toNat < 4294967296 := count.toUInt32.toNat_lt
    have hn' : count.toUInt32.toNat = pairs.length ∧ pairs.length < 0x80000000 := by
      split at hi <;> omega
    have hw : count.toUInt32 = UInt32.ofNat pairs.length := by
      rw [← hn'.1, UInt32.ofNat_toNat]
    rw [hw] at hfaces ⊢
    exact ⟨.lookupSwitch padding default pairs hn ha hn'.2, rfl, hfaces, rfl, rfl⟩
  · obtain ⟨_, ⟨⟨inner, operands, hw, hs, rfl⟩, rfl⟩, hfaces, rfl⟩ :=
      (parses_skipped parses_skipWide c hc _ _).mp h
    exact ⟨.wide inner operands hw hs, rfl, hfaces, rfl, rfl⟩

/-- An instruction is decoded exactly where a line stands, and it is the instruction of the line. -/
theorem parses_decode (pool : ConstantPool) : Parses (decode pool) fun n bytes i =>
    ∃ line : Line pool n, line.bytes = bytes ∧ line.instruction = i := by
  unfold decode
  refine (parses_offset.bind fun address => Parses.bind (H := fun (byte : Nat) n bytes i =>
    ∃ line : Line pool address, Opcode.ofByte? byte = some line.opcode ∧ line.operands = bytes ∧
      ofLine line n = i) parses_u1 fun byte => ?_).congr fun n bytes i => ⟨?_, ?_⟩
  · split
    · rename_i op hop
      intro c hc i c'
      constructor
      · intro h
        obtain ⟨line, rfl, hfaces, hi, rfl⟩ := line_of_decodeOperands hc h
        exact ⟨line.operands, ⟨line, hop, rfl, hi⟩, hfaces, rfl⟩
      · rintro ⟨_, ⟨line, hline, rfl, rfl⟩, hfaces, rfl⟩
        obtain rfl := Option.some.inj (hop.symm.trans hline)
        exact decodeOperands_line line hfaces
    · rename_i hop
      exact (parses_throw _).congr (by simp [hop])
  · rintro ⟨_, _, _, rfl, ⟨rfl, rfl⟩, _, _, _, rfl, ⟨b, rfl, rfl⟩, line, hline, rfl, rfl⟩
    obtain rfl := Opcode.ofByte?_eq_some.mp hline
    refine ⟨line, rfl, ?_⟩
    simp [Line.instruction, ofLine, Line.bytes]
    omega
  · rintro ⟨line, rfl, rfl⟩
    refine ⟨n, [], line.bytes, rfl, ⟨rfl, rfl⟩, line.opcode.byte.toNat, [line.opcode.byte],
      line.operands, rfl, ⟨_, rfl, rfl⟩, line, Opcode.ofByte?_eq_some.mpr rfl, rfl, ?_⟩
    simp [Line.instruction, ofLine, Line.bytes]
    omega

end Instruction

end Callsite
