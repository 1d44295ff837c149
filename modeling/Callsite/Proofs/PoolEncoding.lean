import Callsite.ClassFile.ConstantPool
import Callsite.Proofs.Decoding

/-!
# Written constant pools

A `PoolEntry` is a constant as it is written: a tag and the fields after it. The pool of a list of
entries numbers them from 1 and leaves a slot empty after each constant of eight bytes. Decoding
what is written for the entries gives their pool.
-/

namespace Callsite

inductive PoolEntry
  | utf8 (raw : List UInt8) (text : Text) (decodes : ModifiedUtf8.decode? raw = some text)
      (fits : raw.length < 0x10000)
  | integer (value : Int32)
  | float (bits : UInt32)
  | long (value : Int64)
  | double (bits : UInt64)
  | classRef (name : UInt16)
  | string (text : UInt16)
  | fieldRef (owner nameAndType : UInt16)
  | methodRef (owner nameAndType : UInt16)
  | interfaceMethodRef (owner nameAndType : UInt16)
  | nameAndType (name descriptor : UInt16)
  | methodHandle (referenceKind : UInt8) (reference : UInt16)
  | methodType (descriptor : UInt16)
  | dynamic (bootstrap nameAndType : UInt16)
  | invokeDynamic (bootstrap nameAndType : UInt16)
  | module (name : UInt16)
  | package (name : UInt16)

namespace PoolEntry

def tag : PoolEntry → UInt8
  | .utf8 .. => 1
  | .integer _ => 3
  | .float _ => 4
  | .long _ => 5
  | .double _ => 6
  | .classRef _ => 7
  | .string _ => 8
  | .fieldRef .. => 9
  | .methodRef .. => 10
  | .interfaceMethodRef .. => 11
  | .nameAndType .. => 12
  | .methodHandle .. => 15
  | .methodType _ => 16
  | .dynamic .. => 17
  | .invokeDynamic .. => 18
  | .module _ => 19
  | .package _ => 20

/-- What stands after the tag. -/
def fields : PoolEntry → List UInt8
  | .utf8 raw _ _ _ => bigEndian 2 raw.length ++ raw
  | .integer value => field4 value.toUInt32
  | .float bits => field4 bits
  | .long value => field8 value.toUInt64
  | .double bits => field8 bits
  | .classRef a | .string a | .methodType a | .module a | .package a => field2 a
  | .fieldRef a b | .methodRef a b | .interfaceMethodRef a b | .nameAndType a b | .dynamic a b
  | .invokeDynamic a b => field2 a ++ field2 b
  | .methodHandle a b => a :: field2 b

def bytes (entry : PoolEntry) : List UInt8 := entry.tag :: entry.fields

def constant : PoolEntry → Constant
  | .utf8 _ text _ _ => .utf8 text
  | .integer value => .integer value.toInt
  | .float bits => .float (.ofSingleBits bits.toNat)
  | .long value => .long value.toInt
  | .double bits => .double (.ofBits bits.toNat)
  | .classRef a => .classRef a.toNat
  | .string a => .string a.toNat
  | .fieldRef a b => .fieldRef a.toNat b.toNat
  | .methodRef a b => .methodRef a.toNat b.toNat
  | .interfaceMethodRef a b => .interfaceMethodRef a.toNat b.toNat
  | .nameAndType a b => .nameAndType a.toNat b.toNat
  | .methodHandle a b => .methodHandle a.toNat b.toNat
  | .methodType a => .methodType a.toNat
  | .dynamic a b => .dynamic a.toNat b.toNat
  | .invokeDynamic a b => .invokeDynamic a.toNat b.toNat
  | .module a => .module a.toNat
  | .package a => .package a.toNat

/-- The slots that an entry takes. -/
def slots : PoolEntry → List (Option Constant)
  | .long value => [some (.long value.toInt), none]
  | .double bits => [some (.double (.ofBits bits.toNat)), none]
  | entry => [some entry.constant]

end PoolEntry

def ConstantPool.ofEntries (entries : List PoolEntry) : ConstantPool :=
  ⟨(none :: entries.flatMap PoolEntry.slots).toArray⟩

-- ---------------------------------------------------------------------------
-- One entry
-- ---------------------------------------------------------------------------

theorem PoolEntry.slots_eq (entry : PoolEntry) :
    entry.slots = if entry.constant.isWide then [some entry.constant, none]
      else [some entry.constant] := by
  cases entry <;> rfl

namespace ConstantPool

theorem ofTwo_fields (make : Nat → Nat → Constant) (a b : UInt16) :
    ofTwo make (field2 a ++ field2 b) = make a.toNat b.toNat := by
  rw [ofTwo, List.take_left' (length_field2 a), List.drop_left' (length_field2 a),
    natOfBytes_field2, natOfBytes_field2]

/-- Every tag but that of a text says how long its fields are and what they make. -/
theorem payload?_entry (entry : PoolEntry) (h : entry.tag.toNat ≠ utf8Tag) :
    ∃ make, payload? entry.tag.toNat = some (entry.fields.length, make) ∧
      make entry.fields = entry.constant := by
  cases entry with
  | utf8 => exact absurd rfl h
  | integer value => exact ⟨_, rfl, congrArg Constant.integer (intOfBytes_field4 value)⟩
  | long value => exact ⟨_, rfl, congrArg Constant.long (intOfBytes_field8 value)⟩
  | float bits => exact ⟨_, rfl, congrArg (Constant.float ∘ .ofSingleBits) (natOfBytes_field4 bits)⟩
  | double bits => exact ⟨_, rfl, congrArg (Constant.double ∘ .ofBits) (natOfBytes_field8 bits)⟩
  | classRef a => exact ⟨_, rfl, congrArg Constant.classRef (natOfBytes_field2 a)⟩
  | string a => exact ⟨_, rfl, congrArg Constant.string (natOfBytes_field2 a)⟩
  | methodType a => exact ⟨_, rfl, congrArg Constant.methodType (natOfBytes_field2 a)⟩
  | module a => exact ⟨_, rfl, congrArg Constant.module (natOfBytes_field2 a)⟩
  | package a => exact ⟨_, rfl, congrArg Constant.package (natOfBytes_field2 a)⟩
  | fieldRef a b => exact ⟨_, rfl, ofTwo_fields .fieldRef a b⟩
  | methodRef a b => exact ⟨_, rfl, ofTwo_fields .methodRef a b⟩
  | interfaceMethodRef a b => exact ⟨_, rfl, ofTwo_fields .interfaceMethodRef a b⟩
  | nameAndType a b => exact ⟨_, rfl, ofTwo_fields .nameAndType a b⟩
  | dynamic a b => exact ⟨_, rfl, ofTwo_fields .dynamic a b⟩
  | invokeDynamic a b => exact ⟨_, rfl, ofTwo_fields .invokeDynamic a b⟩
  | methodHandle a b =>
    exact ⟨_, rfl, congr (congrArg Constant.methodHandle (natOfBytes_singleton a))
      (natOfBytes_field2 b)⟩

theorem reads_decodeText (decodes : ModifiedUtf8.decode? raw = some text)
    (fits : raw.length < 0x10000) :
    Decoder.Reads decodeText (bigEndian 2 raw.length ++ raw) (.utf8 text) := by
  refine (Decoder.reads_u2 fits).bind ?_
  refine (Decoder.reads_take raw).last ?_
  rw [decodes]
  exact Decoder.reads_pure _

theorem reads_decodeConstant (index : Nat) (entry : PoolEntry) :
    Decoder.Reads (decodeConstant index) entry.bytes entry.constant := by
  refine (Decoder.reads_u1 entry.tag).bind ?_
  by_cases h : entry.tag.toNat = utf8Tag
  · rw [if_pos h]
    cases entry with
    | utf8 raw text decodes fits => exact reads_decodeText decodes fits
    | _ => cases h
  · obtain ⟨make, hpayload, hconstant⟩ := payload?_entry entry h
    rw [if_neg h, hpayload, ← hconstant]
    exact (Decoder.reads_take entry.fields).map make

-- ---------------------------------------------------------------------------
-- All entries
-- ---------------------------------------------------------------------------

/-- The slots left to fill are those of the entries left to read. -/
theorem reads_decodeSlots (entries : List PoolEntry) (done : List (Option Constant)) :
    Decoder.Reads (decodeSlots (entries.flatMap PoolEntry.slots).length done.toArray)
      (entries.flatMap PoolEntry.bytes)
      (done ++ entries.flatMap PoolEntry.slots).toArray := by
  induction entries generalizing done with
  | nil =>
    rw [List.flatMap_nil, List.append_nil]
    exact Decoder.reads_pure _
  | cons entry rest ih =>
    rw [List.flatMap_cons, List.flatMap_cons, List.length_append, Nat.add_comm, entry.slots_eq]
    by_cases h : entry.constant.isWide
    · -- the second slot is counted but has no bytes
      rw [if_pos h, List.length_cons, List.length_singleton]
      refine (reads_decodeConstant done.toArray.size entry).bind ?_
      have hrest := ih (done ++ [some entry.constant] ++ [none])
      rw [List.append_assoc, List.append_assoc] at hrest
      rw [if_pos h, List.push_toArray, List.push_toArray, List.append_assoc]
      exact hrest
    · rw [if_neg h, List.length_singleton, decodeSlots]
      refine (reads_decodeConstant done.toArray.size entry).bind ?_
      rw [if_neg h, List.push_toArray, ← List.append_assoc]
      exact ih (done ++ [some entry.constant])

theorem decode_ok {c c' : Cursor} (h : decode total c = .ok pool c') : 1 ≤ total ∧ ∃ c₁,
    decodeSlots (total.toNat - 1) #[none] { c with blame := .malformedConstantPool } =
      .ok pool.slots c₁ ∧ { c₁ with blame := c.blame } = c' := by
  rw [decode] at h
  split at h
  · cases h
  · obtain ⟨c₁, hrun, hcursor⟩ := Decoder.charging_ok.mp h
    obtain ⟨slots, c₂, hslots, hpool⟩ := Decoder.bind_ok.mp hrun
    obtain ⟨rfl, rfl⟩ := Decoder.pure_ok.mp hpool
    exact ⟨by omega, c₂, hslots, hcursor⟩

theorem reads_decode (entries : List PoolEntry) :
    Decoder.Reads (decode ((entries.flatMap PoolEntry.slots).length + 1 : Nat))
      (entries.flatMap PoolEntry.bytes) (ofEntries entries) := by
  have hcount : ¬ (((entries.flatMap PoolEntry.slots).length + 1 : Nat) : Int) < 1 := by omega
  rw [decode, if_neg hcount, Int.toNat_natCast, Nat.add_sub_cancel]
  have hslots := reads_decodeSlots entries [none]
  exact (hslots.last (Decoder.reads_pure (ofEntries entries))).charging _

end ConstantPool

end Callsite
