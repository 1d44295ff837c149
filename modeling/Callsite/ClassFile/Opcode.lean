import Callsite.Text.Basic

/-!
# Opcodes

The bytes 0 to 201 are opcodes. All instructions have a fixed length but the two switches and
`wide`.
-/

namespace Callsite

abbrev Opcode := Fin 202

namespace Opcode

def mnemonics : Vector String 202 := #v[
    "nop", "aconst_null", "iconst_m1", "iconst_0", "iconst_1", "iconst_2", "iconst_3", "iconst_4",
    "iconst_5", "lconst_0", "lconst_1", "fconst_0", "fconst_1", "fconst_2", "dconst_0", "dconst_1",
    "bipush", "sipush", "ldc", "ldc_w", "ldc2_w", "iload", "lload", "fload", "dload", "aload",
    "iload_0", "iload_1", "iload_2", "iload_3", "lload_0", "lload_1", "lload_2", "lload_3",
    "fload_0", "fload_1", "fload_2", "fload_3", "dload_0", "dload_1", "dload_2", "dload_3",
    "aload_0", "aload_1", "aload_2", "aload_3", "iaload", "laload", "faload", "daload", "aaload",
    "baload", "caload", "saload", "istore", "lstore", "fstore", "dstore", "astore", "istore_0",
    "istore_1", "istore_2", "istore_3", "lstore_0", "lstore_1", "lstore_2", "lstore_3", "fstore_0",
    "fstore_1", "fstore_2", "fstore_3", "dstore_0", "dstore_1", "dstore_2", "dstore_3", "astore_0",
    "astore_1", "astore_2", "astore_3", "iastore", "lastore", "fastore", "dastore", "aastore",
    "bastore", "castore", "sastore", "pop", "pop2", "dup", "dup_x1", "dup_x2", "dup2", "dup2_x1",
    "dup2_x2", "swap", "iadd", "ladd", "fadd", "dadd", "isub", "lsub", "fsub", "dsub", "imul",
    "lmul", "fmul", "dmul", "idiv", "ldiv", "fdiv", "ddiv", "irem", "lrem", "frem", "drem", "ineg",
    "lneg", "fneg", "dneg", "ishl", "lshl", "ishr", "lshr", "iushr", "lushr", "iand", "land",
    "ior", "lor", "ixor", "lxor", "iinc", "i2l", "i2f", "i2d", "l2i", "l2f", "l2d", "f2i", "f2l",
    "f2d", "d2i", "d2l", "d2f", "i2b", "i2c", "i2s", "lcmp", "fcmpl", "fcmpg", "dcmpl", "dcmpg",
    "ifeq", "ifne", "iflt", "ifge", "ifgt", "ifle", "if_icmpeq", "if_icmpne", "if_icmplt",
    "if_icmpge", "if_icmpgt", "if_icmple", "if_acmpeq", "if_acmpne", "goto", "jsr", "ret",
    "tableswitch", "lookupswitch", "ireturn", "lreturn", "freturn", "dreturn", "areturn", "return",
    "getstatic", "putstatic", "getfield", "putfield", "invokevirtual", "invokespecial",
    "invokestatic", "invokeinterface", "invokedynamic", "new", "newarray", "anewarray",
    "arraylength", "athrow", "checkcast", "instanceof", "monitorenter", "monitorexit", "wide",
    "multianewarray", "ifnull", "ifnonnull", "goto_w", "jsr_w"]

def mnemonic (op : Opcode) : String := mnemonics[op]

/-- The name by which an opcode is listed. -/
def name (op : Opcode) : String := op.mnemonic.toUpper

def ofByte? (byte : Int) : Option Opcode :=
  if h : 0 ≤ byte ∧ byte < 202 then some ⟨byte.toNat, by omega⟩ else none

def iinc : Opcode := 0x84
def tableSwitch : Opcode := 0xAA
def lookupSwitch : Opcode := 0xAB
def getStatic : Opcode := 0xB2
def putStatic : Opcode := 0xB3
def invokeVirtual : Opcode := 0xB6
def invokeSpecial : Opcode := 0xB7
def invokeStatic : Opcode := 0xB8
def invokeInterface : Opcode := 0xB9
def invokeDynamic : Opcode := 0xBA
def wide : Opcode := 0xC4

/-- Loads and stores of a local variable whose index is an operand. -/
def isLocalAccess (op : Opcode) : Bool :=
  (0x15 ≤ op.val && op.val ≤ 0x19) || (0x36 ≤ op.val && op.val ≤ 0x3A)

/-- The operand bytes after the opcode, where there are any and their number is fixed. -/
def operandSize? (op : Opcode) : Option Nat :=
  if op.isLocalAccess then some 1
  else match op.val with
    | 0x10 => some 1
    | 0x11 => some 2
    | 0x12 => some 1
    | 0x13 => some 2
    | 0x14 => some 2
    | 0x84 => some 2
    | 0xA9 => some 1
    | 0xB9 => some 4
    | 0xBA => some 4
    | 0xBB => some 2
    | 0xBC => some 1
    | 0xBD => some 2
    | 0xC0 => some 2
    | 0xC1 => some 2
    | 0xC5 => some 3
    | 0xC6 => some 2
    | 0xC7 => some 2
    | 0xC8 => some 4
    | 0xC9 => some 4
    | n => if (0x99 ≤ n && n ≤ 0xA8) || (0xB2 ≤ n && n ≤ 0xB8) then some 2 else none

def operandSize (op : Opcode) : Nat := op.operandSize?.getD 0

def isVariableLength (op : Opcode) : Bool := op = tableSwitch || op = lookupSwitch || op = wide

/-- What may follow `wide`. -/
def isWidenable (op : Opcode) : Bool := op.isLocalAccess || op.val = 0xA9 || op = iinc

def isInvoke (op : Opcode) : Bool := 0xB6 ≤ op.val && op.val ≤ 0xBA

def isField (op : Opcode) : Bool := 0xB2 ≤ op.val && op.val ≤ 0xB5

/-- The length of an instruction, its opcode included. -/
def fixedLength? (op : Opcode) : Option Nat :=
  if op.isVariableLength then none else some (1 + op.operandSize)

/-- The bytes between the opcode of a switch and its operands, which start at a multiple of four. -/
def switchPadding (address : Int) : Int := (4 - (address + 1) % 4) % 4

end Opcode

end Callsite
