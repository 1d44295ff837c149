import Callsite.ClassFile.Cursor
import Callsite.ClassFile.MemberReference
import Callsite.Text.ModifiedUtf8

/-!
# Constant pool

A table of constants with indices from 1. A constant of eight bytes takes two slots, and the second
one is reserved: nothing can be read from it. Resolution follows indices from entry to entry, and
each step insists on the kind of entry that it needs.
-/

namespace Callsite

/-- `slots` starts with the unused slot 0; reserved slots are empty. -/
structure ConstantPool where
  slots : Array (Option Constant)
  deriving DecidableEq

namespace ConstantPool

def count (pool : ConstantPool) : Nat := pool.slots.size

/-- The constant made from two indices of two bytes each. -/
def ofTwo (make : Nat → Nat → Constant) (raw : List UInt8) : Constant :=
  make (natOfBytes (raw.take 2)) (natOfBytes (raw.drop 2))

/-- The constant after its tag, for the tags whose length does not depend on the bytes. -/
def payload? : Nat → Option (Nat × (List UInt8 → Constant))
  | 3 => some (4, fun raw => .integer (intOfBytes raw))
  | 4 => some (4, fun raw => .float (.ofSingleBits (natOfBytes raw)))
  | 5 => some (8, fun raw => .long (intOfBytes raw))
  | 6 => some (8, fun raw => .double (.ofBits (natOfBytes raw)))
  | 7 => some (2, fun raw => .classRef (natOfBytes raw))
  | 8 => some (2, fun raw => .string (natOfBytes raw))
  | 9 => some (4, ofTwo .fieldRef)
  | 10 => some (4, ofTwo .methodRef)
  | 11 => some (4, ofTwo .interfaceMethodRef)
  | 12 => some (4, ofTwo .nameAndType)
  | 15 => some (3, fun raw => .methodHandle (natOfBytes (raw.take 1)) (natOfBytes (raw.drop 1)))
  | 16 => some (2, fun raw => .methodType (natOfBytes raw))
  | 17 => some (4, ofTwo .dynamic)
  | 18 => some (4, ofTwo .invokeDynamic)
  | 19 => some (2, fun raw => .module (natOfBytes raw))
  | 20 => some (2, fun raw => .package (natOfBytes raw))
  | _ => none

def utf8Tag : Nat := 1

def decodeText : Decoder Constant := do
  let raw ← Decoder.take (← Decoder.u2)
  match ModifiedUtf8.decode? raw with
  | some text => pure (.utf8 text)
  | none => throw (.pool (.undecodableText raw))

def decodeConstant (index : Nat) : Decoder Constant := do
  let tag ← Decoder.u1
  if tag = utf8Tag then decodeText
  else match payload? tag with
    | some (size, make) => make <$> Decoder.take size
    | none => throw (.pool (.unknownTag tag index))

/-- Fills the given number of slots. -/
def decodeSlots : Nat → Array (Option Constant) → Decoder (Array (Option Constant))
  | 0, slots => pure slots
  | n + 1, slots => do
    let constant ← decodeConstant slots.size
    if constant.isWide then
      match n with
      | 0 => throw (.pool (.noSecondSlot slots.size))
      | m + 1 => decodeSlots m ((slots.push (some constant)).push none)
    else decodeSlots n (slots.push (some constant))

/-- Decodes the slots 1 to `count - 1`. Whatever goes wrong is the pool's fault. -/
def decode (count : Int) : Decoder ConstantPool :=
  if count < 1 then throw (.pool (.count count))
  else Decoder.charging .malformedConstantPool do
    return ⟨← decodeSlots (count.toNat - 1) #[none]⟩

def get (pool : ConstantPool) (index : Int) : Except PoolFault Constant :=
  if 0 < index ∧ index < pool.count then
    match pool.slots[index.toNat]? with
    | some (some constant) => .ok constant
    | _ => .error (.reserved index)
  else .error (.outOfRange index (pool.count - 1))

/-- The constant at an index, which must be of one of the given kinds. -/
def getKind (pool : ConstantPool) (index : Int) (kinds : List ConstantKind) :
    Except PoolFault Constant := do
  let constant ← pool.get index
  if kinds.contains constant.kind then return constant
  else throw (.wrongKind index constant.kind kinds)

def utf8 (pool : ConstantPool) (index : Int) : Except PoolFault Text := do
  match ← pool.getKind index [.utf8] with
  | .utf8 value => return value
  | other => throw (.wrongKind index other.kind [.utf8])

/-- The internal name of a class entry. -/
def className (pool : ConstantPool) (index : Int) : Except PoolFault Text := do
  match ← pool.getKind index [.classRef] with
  | .classRef name => pool.utf8 name
  | other => throw (.wrongKind index other.kind [.classRef])

def classSignature (pool : ConstantPool) (index : Int) : Except PoolFault Text :=
  typeSignature <$> pool.className index

def nameAndType (pool : ConstantPool) (index : Int) : Except PoolFault (Text × Text) := do
  match ← pool.getKind index [.nameAndType] with
  | .nameAndType name descriptor => return (← pool.utf8 name, ← pool.utf8 descriptor)
  | other => throw (.wrongKind index other.kind [.nameAndType])

def memberKinds : List ConstantKind := [.fieldRef, .methodRef, .interfaceMethodRef]

/-- The member that an entry of one of the given kinds stands for. -/
def memberReference (pool : ConstantPool) (index : Int) (kinds : List ConstantKind := memberKinds) :
    Except PoolFault MemberReference := do
  match ← pool.getKind index kinds with
  | .fieldRef owner nameAndType
  | .methodRef owner nameAndType
  | .interfaceMethodRef owner nameAndType =>
    let owner ← pool.className owner
    let (name, descriptor) ← pool.nameAndType nameAndType
    if owner.isEmpty || name.isEmpty || descriptor.isEmpty then throw (.emptyComponent index)
    else return { owner, name, descriptor }
  | other => throw (.wrongKind index other.kind kinds)

/-- The bootstrap method, name and descriptor of a dynamic call site. -/
def invokeDynamic (pool : ConstantPool) (index : Int) : Except PoolFault (Nat × Text × Text) := do
  match ← pool.getKind index [.invokeDynamic] with
  | .invokeDynamic bootstrap nameAndType =>
    let (name, descriptor) ← pool.nameAndType nameAndType
    return (bootstrap, name, descriptor)
  | other => throw (.wrongKind index other.kind [.invokeDynamic])

end ConstantPool

end Callsite
