import Callsite.ClassFile.Constant
import Callsite.ClassFile.Opcode
import Callsite.Text.Quoted

/-!
# Faults

Why a class file, a constant pool or a code array cannot be decoded. A fault is a cause; its kind
says which unit is to blame, and its message is what a reader of the diagnostics sees.
-/

namespace Callsite

inductive FaultKind
  | classFileError
  | notAClassFile
  | unsupportedVersion
  | malformedClassFile
  | malformedConstantPool
  | malformedBytecode
  deriving DecidableEq, Repr

def FaultKind.label : FaultKind → String
  | .classFileError => "ClassFileError"
  | .notAClassFile => "NotAClassFile"
  | .unsupportedVersion => "UnsupportedClassVersion"
  | .malformedClassFile => "MalformedClassFile"
  | .malformedConstantPool => "MalformedConstantPool"
  | .malformedBytecode => "MalformedBytecode"

def FaultKind.all : List FaultKind :=
  [.classFileError, .notAClassFile, .unsupportedVersion, .malformedClassFile,
    .malformedConstantPool, .malformedBytecode]

inductive PoolFault
  | count (count : Int)
  | unknownTag (tag index : Nat)
  | noSecondSlot (index : Nat)
  | undecodableText (raw : List UInt8)
  | outOfRange (index : Int) (last : Nat)
  | reserved (index : Int)
  | wrongKind (index : Int) (found : ConstantKind) (expected : List ConstantKind)
  | emptyComponent (index : Int)
  deriving DecidableEq, Repr

inductive CodeFault
  | unknownOpcode (byte address : Nat)
  | tableBounds (address : Nat) (low high : Int)
  | pairCount (address : Nat) (count : Int)
  | notWidenable (address byte : Nat)
  | noArguments (address : Nat)
  | interfacePadding (address padding : Nat)
  | dynamicPadding (address padding : Nat)
  | unresolved (op : Opcode) (address : Nat) (cause : PoolFault)
  | codeTooLong (method : Text) (length : Nat) (left : Int)
  | defect (description : Text)
  deriving DecidableEq, Repr

inductive Fault
  | negativeLength (blame : FaultKind) (length : Int) (offset : Nat)
  | shortRead (blame : FaultKind) (need offset : Nat) (left : Int)
  | badMagic (start : List UInt8)
  | oldVersion (major minor : Nat)
  | secondCode (method : Text)
  | pool (cause : PoolFault)
  | code (cause : CodeFault)
  deriving DecidableEq, Repr

/-- The oldest major version that is decoded. -/
def oldestMajor : Nat := 45

def PoolFault.message : PoolFault → Text
  | .count n => "constant pool count " ++ Text.ofInt n ++ " is smaller than 1"
  | .unknownTag tag index =>
    "unknown constant tag " ++ Text.ofNat tag ++ " at #" ++ Text.ofNat index
  | .noSecondSlot index =>
    "8-byte constant at #" ++ Text.ofNat index ++ " has no room for its second slot"
  | .undecodableText raw => "invalid modified UTF-8: " ++ Text.quotedBytes (raw.take 32)
  | .outOfRange index last =>
    "index #" ++ Text.ofInt index ++ " out of range 1.." ++ Text.ofNat last
  | .reserved index =>
    "index #" ++ Text.ofInt index ++ " is the reserved half of an 8-byte constant"
  | .wrongKind index found expected =>
    "#" ++ Text.ofInt index ++ " is " ++ found.label ++ ", expected " ++
      Text.join "/" (expected.map fun k => Text.ofString k.label)
  | .emptyComponent index =>
    "member reference #" ++ Text.ofInt index ++ " has an empty component"

def CodeFault.message : CodeFault → Text
  | .unknownOpcode byte address =>
    "unknown opcode 0x" ++ Text.hex 2 byte ++ " at " ++ Text.ofNat address
  | .tableBounds address low high =>
    "tableswitch at " ++ Text.ofNat address ++ ": high " ++ Text.ofInt high ++ " < low " ++
      Text.ofInt low
  | .pairCount address count =>
    "lookupswitch at " ++ Text.ofNat address ++ ": negative pair count " ++ Text.ofInt count
  | .notWidenable address byte =>
    "wide at " ++ Text.ofNat address ++ " modifies opcode 0x" ++ Text.hex 2 byte
  | .noArguments address => "invokeinterface at " ++ Text.ofNat address ++ " has argument count 0"
  | .interfacePadding address padding =>
    "invokeinterface at " ++ Text.ofNat address ++ " has non-zero padding " ++ Text.ofNat padding
  | .dynamicPadding address padding =>
    "invokedynamic at " ++ Text.ofNat address ++ " has non-zero padding " ++ Text.ofNat padding
  | .unresolved op address cause =>
    op.mnemonic ++ " at " ++ Text.ofNat address ++ ": " ++ cause.message
  | .codeTooLong method length left =>
    method ++ ": code length " ++ Text.ofNat length ++ " exceeds Code attribute (" ++
      Text.ofInt left ++ " left)"
  | .defect description => description

namespace Fault

def kind : Fault → FaultKind
  | .negativeLength blame _ _ => blame
  | .shortRead blame _ _ _ => blame
  | .badMagic _ => .notAClassFile
  | .oldVersion _ _ => .unsupportedVersion
  | .secondCode _ => .malformedClassFile
  | .pool _ => .malformedConstantPool
  | .code _ => .malformedBytecode

def message : Fault → Text
  | .negativeLength _ length offset =>
    "negative length " ++ Text.ofInt length ++ " at offset " ++ Text.ofNat offset
  | .shortRead _ need offset left =>
    "need " ++ Text.ofNat need ++ " bytes at offset " ++ Text.ofNat offset ++ ", only " ++
      Text.ofInt left ++ " left"
  | .badMagic start => "bad magic " ++ Text.quoted (Text.ofBytesHex start)
  | .oldVersion major minor =>
    "class file version " ++ Text.ofNat major ++ "." ++ Text.ofNat minor ++ " predates " ++
      Text.ofNat oldestMajor ++ ".0"
  | .secondCode method => "method " ++ method ++ " has two Code attributes"
  | .pool cause => cause.message
  | .code cause => cause.message

end Fault

end Callsite
