import Callsite.ClassFile.ConstantPool

/-!
# Instructions

Instructions tile a code array: each starts where the one before it ends. Calls and field accesses
carry the member they refer to; of all others only the place and the length are kept, so that the
cursor stays in step with the real boundaries through switch padding and `wide`.
-/

namespace Callsite

/-- What an instruction refers to. -/
inductive Operand
  | none
  | field (reference : MemberReference)
  | method (reference : MemberReference)
  | interfaceMethod (reference : MemberReference) (count : Nat)
  | dynamicCall (reference : MemberReference) (bootstrap : Nat)
  deriving DecidableEq, Repr

structure Instruction where
  opcode : Opcode
  address : Nat
  length : Nat
  operand : Operand := .none
  deriving DecidableEq, Repr

namespace Operand

/-- The callee of a call. -/
def call? : Operand → Option MemberReference
  | .method reference | .interfaceMethod reference _ | .dynamicCall reference _ => some reference
  | .none | .field _ => Option.none

/-- The field that is read or written. -/
def field? : Operand → Option MemberReference
  | .field reference => some reference
  | _ => Option.none

def reference? : Operand → Option MemberReference
  | .none => Option.none
  | .field reference | .method reference | .interfaceMethod reference _
  | .dynamicCall reference _ => some reference

end Operand

/-- A dynamic call site names no owner; it is recorded against the root of all classes. -/
def dynamicOwner : Text := "java/lang/Object"

namespace Instruction

def call? (i : Instruction) : Option MemberReference := i.operand.call?

def field? (i : Instruction) : Option MemberReference := i.operand.field?

def render (i : Instruction) : Text :=
  let start : Text := Text.ofNat i.address ++ ": " ++ i.opcode.mnemonic
  match i.operand.reference? with
  | some reference => start ++ " " ++ reference.render
  | none => start

/-- The instruction that ends at the cursor. -/
def finish (opcode : Opcode) (address : Nat) (operand : Operand := .none) :
    Decoder Instruction := do
  return { opcode, address, length := (← Decoder.offset) - address, operand }

/-- Passes over the padding and the default of a switch. -/
def skipSwitchHead (address : Nat) : Decoder Unit := do
  Decoder.skip (Opcode.switchPadding address)
  Decoder.skip 4

def skipTableSwitch (address : Nat) : Decoder Unit := do
  skipSwitchHead address
  let low ← Decoder.s4
  let high ← Decoder.s4
  if high < low then throw (.code (.tableBounds address low high))
  else Decoder.skip (4 * (high - low + 1))

def skipLookupSwitch (address : Nat) : Decoder Unit := do
  skipSwitchHead address
  let pairs ← Decoder.s4
  if pairs < 0 then throw (.code (.pairCount address pairs))
  else Decoder.skip (8 * pairs)

def skipWide (address : Nat) : Decoder Unit := do
  let byte ← Decoder.u1
  match Opcode.ofByte? byte with
  | some inner =>
    if inner.isWidenable then Decoder.skip (if inner = Opcode.iinc then 4 else 2)
    else throw (.code (.notWidenable address byte))
  | none => throw (.code (.notWidenable address byte))

/-- A failed look-up in the pool is the fault of the instruction that made it. -/
def resolving (op : Opcode) (address : Nat) (r : Except PoolFault α) : Decoder α :=
  match r with
  | .ok a => pure a
  | .error e => throw (.code (.unresolved op address e))

def decodeInterfaceCall (pool : ConstantPool) (op : Opcode) (address : Nat) :
    Decoder Instruction := do
  let index ← Decoder.u2
  let count ← Decoder.u1
  let padding ← Decoder.u1
  if count = 0 then throw (.code (.noArguments address))
  else if padding ≠ 0 then throw (.code (.interfacePadding address padding))
  else
    let reference ← resolving op address (pool.memberReference index [.interfaceMethodRef])
    finish op address (.interfaceMethod reference count)

def decodeDynamicCall (pool : ConstantPool) (op : Opcode) (address : Nat) :
    Decoder Instruction := do
  let index ← Decoder.u2
  let padding ← Decoder.u2
  if padding ≠ 0 then throw (.code (.dynamicPadding address padding))
  else
    let (bootstrap, name, descriptor) ← resolving op address (pool.invokeDynamic index)
    finish op address (.dynamicCall { owner := dynamicOwner, name, descriptor } bootstrap)

def decodeCall (pool : ConstantPool) (op : Opcode) (address : Nat) : Decoder Instruction := do
  let index ← Decoder.u2
  let reference ← resolving op address
    (pool.memberReference index [.methodRef, .interfaceMethodRef])
  finish op address (.method reference)

def decodeField (pool : ConstantPool) (op : Opcode) (address : Nat) : Decoder Instruction := do
  let index ← Decoder.u2
  let reference ← resolving op address (pool.memberReference index [.fieldRef])
  finish op address (.field reference)

/-- Decodes what follows the opcode. -/
def decodeOperands (pool : ConstantPool) (op : Opcode) (address : Nat) : Decoder Instruction := do
  if op = Opcode.invokeInterface then decodeInterfaceCall pool op address
  else if op = Opcode.invokeDynamic then decodeDynamicCall pool op address
  else if op.isInvoke then decodeCall pool op address
  else if op.isField then decodeField pool op address
  else
    if op = Opcode.tableSwitch then skipTableSwitch address
    else if op = Opcode.lookupSwitch then skipLookupSwitch address
    else if op = Opcode.wide then skipWide address
    else Decoder.skip op.operandSize
    finish op address

def decode (pool : ConstantPool) : Decoder Instruction := do
  let address ← Decoder.offset
  let byte ← Decoder.u1
  match Opcode.ofByte? byte with
  | some op => decodeOperands pool op address
  | none => throw (.code (.unknownOpcode byte address))

/-- Decodes instructions to the end of the data. Each takes at least a byte, so as many rounds as
there are bytes are enough. -/
def decodeFrom (pool : ConstantPool) : Nat → List Instruction → Decoder (List Instruction)
  | 0, done => pure done.reverse
  | rounds + 1, done => do
    if (← get).left = 0 then return done.reverse
    else
      let instruction ← decode pool
      decodeFrom pool rounds (instruction :: done)

end Instruction

/-- The instructions of a whole code array. -/
def decodeCode (pool : ConstantPool) (code : List UInt8) : Except Fault (List Instruction) :=
  match Instruction.decodeFrom pool code.length [] (Cursor.ofBytes code .malformedBytecode) with
  | .ok instructions _ => .ok instructions
  | .error fault _ => .error fault

end Callsite
