import Callsite.ClassFile.Instruction
import Callsite.Proofs.Decoding

/-!
# Assembly

The instruction grammar, from the side of the writer. A `Line` is one instruction with all its
operands at a known address; a `Program` is a row of lines, each at the address where the one before
it ends. Lines carry what makes them well formed: the operands have their sizes, the operands of a
switch are aligned, and an index that names a member resolves in the pool.
-/

namespace Callsite

namespace Opcode

/-- The byte of an opcode. -/
def byte (op : Opcode) : UInt8 := UInt8.ofNat op.val

/-- Opcodes whose operands are a fixed number of bytes that no rule looks at. -/
def isPlain (op : Opcode) : Bool := !op.isInvoke && !op.isField && !op.isVariableLength

/-- Calls whose operand is an index and nothing else. -/
def isPlainCall (op : Opcode) : Bool :=
  op = invokeVirtual || op = invokeSpecial || op = invokeStatic

end Opcode

inductive Line (pool : ConstantPool) (address : Nat)
  | plain (op : Opcode) (operands : List UInt8) (isPlain : op.isPlain)
      (size : operands.length = op.operandSize)
  | field (op : Opcode) (index : UInt16) (reference : MemberReference) (isField : op.isField)
      (resolves : pool.memberReference index.toNat [.fieldRef] = .ok reference)
  | call (op : Opcode) (index : UInt16) (reference : MemberReference) (isCall : op.isPlainCall)
      (resolves : pool.memberReference index.toNat [.methodRef, .interfaceMethodRef] =
        .ok reference)
  | interfaceCall (index : UInt16) (reference : MemberReference) (count : UInt8)
      (counts : count ≠ 0)
      (resolves : pool.memberReference index.toNat [.interfaceMethodRef] = .ok reference)
  | dynamicCall (index : UInt16) (bootstrap : Nat) (name descriptor : Text)
      (resolves : pool.invokeDynamic index.toNat = .ok (bootstrap, name, descriptor))
  | tableSwitch (padding : List UInt8) (default : UInt32) (low high : Int32)
      (offsets : List UInt32) (short : padding.length < 4)
      (aligned : (address + 1 + padding.length) % 4 = 0)
      (size : (offsets.length : Int) = high.toInt - low.toInt + 1) (ordered : low.toInt ≤ high.toInt)
  | lookupSwitch (padding : List UInt8) (default : UInt32) (pairs : List (UInt32 × UInt32))
      (short : padding.length < 4) (aligned : (address + 1 + padding.length) % 4 = 0)
      (fits : pairs.length < 0x80000000)
  | wide (inner : Opcode) (operands : List UInt8) (widens : inner.isWidenable)
      (size : operands.length = if inner = Opcode.iinc then 4 else 2)

namespace Line

variable {pool : ConstantPool} {address : Nat}

def opcode : Line pool address → Opcode
  | .plain op .. | .field op .. | .call op .. => op
  | .interfaceCall .. => Opcode.invokeInterface
  | .dynamicCall .. => Opcode.invokeDynamic
  | .tableSwitch .. => Opcode.tableSwitch
  | .lookupSwitch .. => Opcode.lookupSwitch
  | .wide .. => Opcode.wide

/-- The bytes after the opcode. -/
def operands : Line pool address → List UInt8
  | .plain _ operands .. => operands
  | .field _ index .. | .call _ index .. => field2 index
  | .interfaceCall index _ count .. => field2 index ++ [count, 0]
  | .dynamicCall index .. => field2 index ++ [0, 0]
  | .tableSwitch padding default low high offsets .. =>
    padding ++ field4 default ++ field4 low.toUInt32 ++ field4 high.toUInt32 ++
      offsets.flatMap field4
  | .lookupSwitch padding default pairs .. =>
    padding ++ field4 default ++ field4 (UInt32.ofNat pairs.length) ++
      pairs.flatMap fieldPair
  | .wide inner operands .. => inner.byte :: operands

def bytes (line : Line pool address) : List UInt8 := line.opcode.byte :: line.operands

/-- The member that a line names, as it is to be found in the decoded instruction. -/
def operand : Line pool address → Operand
  | .field _ _ reference .. => .field reference
  | .call _ _ reference .. => .method reference
  | .interfaceCall _ reference count .. => .interfaceMethod reference count.toNat
  | .dynamicCall _ bootstrap name descriptor _ =>
    .dynamicCall { owner := "java/lang/Object", name, descriptor } bootstrap
  | .plain .. | .tableSwitch .. | .lookupSwitch .. | .wide .. => .none

def instruction (line : Line pool address) : Instruction :=
  { opcode := line.opcode, address, length := line.bytes.length, operand := line.operand }

end Line

/-- Lines laid out without gaps from an address on. -/
inductive Program (pool : ConstantPool) : Nat → Type
  | done : Program pool address
  | line (first : Line pool address) (rest : Program pool (address + first.bytes.length)) :
      Program pool address

namespace Program

variable {pool : ConstantPool}

def bytes : Program pool address → List UInt8
  | .done => []
  | .line first rest => first.bytes ++ rest.bytes

def instructions : Program pool address → List Instruction
  | .done => []
  | .line first rest => first.instruction :: rest.instructions

end Program

end Callsite
