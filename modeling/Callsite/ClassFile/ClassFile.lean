import Callsite.ClassFile.Instruction

/-!
# Class files

A class file is a header, a constant pool, and counted tables inside counted tables. Fields and
class attributes are passed over. Of each method the body of its `Code` attribute is taken; a body
that is inconsistent in itself spoils only its method, because the length of the attribute keeps
the cursor in step.
-/

namespace Callsite

def magic : Nat := 0xCAFEBABE

/-- The body of a method. A body that could not be laid out keeps a description of its defect. -/
inductive Code
  | intact (maxStack maxLocals : Nat) (bytes : List UInt8) (handlers : Nat)
  | broken (defect : Text)
  deriving DecidableEq, Repr

namespace Code

def maxStack : Code → Nat
  | .intact maxStack _ _ _ => maxStack
  | .broken _ => 0

def maxLocals : Code → Nat
  | .intact _ maxLocals _ _ => maxLocals
  | .broken _ => 0

def bytes : Code → List UInt8
  | .intact _ _ bytes _ => bytes
  | .broken _ => []

def handlers : Code → Nat
  | .intact _ _ _ handlers => handlers
  | .broken _ => 0

def defect? : Code → Option Text
  | .intact .. => none
  | .broken defect => some defect

def instructions (pool : ConstantPool) : Code → Except Fault (List Instruction)
  | .intact _ _ bytes _ => decodeCode pool bytes
  | .broken defect => .error (.code (.defect defect))

end Code

structure Method where
  access : Nat
  name : Text
  descriptor : Text
  code : Option Code := none
  deriving DecidableEq, Repr

namespace Method

/-- The name and descriptor in one. -/
def signature (m : Method) : Text := m.name ++ m.descriptor

/-- The full name of a method, under the dotted name of its class. -/
def identity (m : Method) (owner : Text) : Text := owner ++ "." ++ m.signature

/-- The instructions of a method; a method without code has none. -/
def instructions (m : Method) (pool : ConstantPool) : Except Fault (List Instruction) :=
  match m.code with
  | none => .ok []
  | some code => code.instructions pool

end Method

structure ClassFile where
  minor : Nat
  major : Nat
  pool : ConstantPool
  access : Nat
  name : Text
  superName : Option Text
  interfaces : List Text
  methods : List Method
  deriving DecidableEq

def ClassFile.dottedName (c : ClassFile) : Text := c.name.dotted

namespace ClassFile

def skipAttribute : Decoder Unit := do
  Decoder.skip 2
  Decoder.skip (← Decoder.u4)

def skipAttributes : Decoder Unit := do
  let _ ← Decoder.times (← Decoder.u2) skipAttribute

def skipField : Decoder Unit := do
  Decoder.skip 6
  skipAttributes

/-- Lays out the body of a `Code` attribute of the named method. -/
def decodeCodeBody (method : Text) : Decoder Code := do
  let maxStack ← Decoder.u2
  let maxLocals ← Decoder.u2
  let length ← Decoder.u4
  let left := (← get).left
  if length > left then throw (.code (.codeTooLong method length left))
  else
    let bytes ← Decoder.take length
    let handlers ← Decoder.u2
    Decoder.skip (8 * handlers)
    skipAttributes
    return .intact maxStack maxLocals bytes handlers

/-- A body with a fault is broken, and the fault describes its defect. -/
def codeOfBody (method : Text) (body : List UInt8) : Code :=
  match decodeCodeBody method (Cursor.ofBytes body .malformedBytecode) with
  | .ok code _ => code
  | .error fault _ => .broken fault.message

/-- The name and the body of an attribute. -/
def decodeAttribute (pool : ConstantPool) : Decoder (Text × List UInt8) := do
  let name ← Decoder.ofPool (pool.utf8 (← Decoder.u2))
  let length ← Decoder.u4
  return (name, ← Decoder.take length)

/-- Goes through the attributes of a method for its code. -/
def decodeMethodCode (pool : ConstantPool) (method : Text) :
    Nat → Option Code → Decoder (Option Code)
  | 0, code => pure code
  | n + 1, code => do
    let (name, body) ← decodeAttribute pool
    if name = Text.ofString "Code" then
      match code with
      | some _ => throw (.secondCode method)
      | none => decodeMethodCode pool method n (some (codeOfBody method body))
    else decodeMethodCode pool method n code

def decodeMethod (pool : ConstantPool) : Decoder Method := do
  let access ← Decoder.u2
  let name ← Decoder.ofPool (pool.utf8 (← Decoder.u2))
  let descriptor ← Decoder.ofPool (pool.utf8 (← Decoder.u2))
  let code ← decodeMethodCode pool (name ++ descriptor) (← Decoder.u2) none
  return { access, name, descriptor, code }

def decodeClassName (pool : ConstantPool) : Decoder Text := do
  Decoder.ofPool (pool.className (← Decoder.u2))

/-- Index 0 stands for the absent superclass of the root of all classes. -/
def decodeSuperName (pool : ConstantPool) : Decoder (Option Text) := do
  let index ← Decoder.u2
  if index = 0 then return none
  else some <$> Decoder.ofPool (pool.className index)

/-- Everything after the magic number. -/
def decodeBody : Decoder ClassFile := do
  let minor ← Decoder.u2
  let major ← Decoder.u2
  if major < oldestMajor then throw (.oldVersion major minor)
  else
    let pool ← ConstantPool.decode (← Decoder.u2)
    let access ← Decoder.u2
    let name ← decodeClassName pool
    let superName ← decodeSuperName pool
    let interfaces ← Decoder.times (← Decoder.u2) (decodeClassName pool)
    let _ ← Decoder.times (← Decoder.u2) skipField
    let methods ← Decoder.times (← Decoder.u2) (decodeMethod pool)
    skipAttributes
    return { minor, major, pool, access, name, superName, interfaces, methods }

/-- Decodes a class file from the start of the data; bytes after its end are ignored. -/
def decode (data : List UInt8) : Except Fault ClassFile :=
  if natOfBytes (data.take 4) = magic then
    match (do Decoder.skip 4; decodeBody : Decoder ClassFile) (Cursor.ofBytes data) with
    | .ok file _ => .ok file
    | .error fault _ => .error fault
  else .error (.badMagic (data.take 4))

end ClassFile

/-- Why a method gives no instructions. Without a class there is no pool to look names up in. -/
inductive MethodFault
  | detached (signature : Text)
  | undecodable (fault : Fault)

def MethodFault.message : MethodFault → Text
  | .detached signature => "method " ++ signature ++ " is not attached to a ClassFile"
  | .undecodable fault => fault.message

namespace Method

/-- The identity of a method whose class may be unknown. -/
def identityIn (m : Method) (owner : Option ClassFile) : Text :=
  m.identity (match owner with | some file => file.dottedName | none => "?")

def instructionsIn (m : Method) (owner : Option ClassFile) :
    Except MethodFault (List Instruction) :=
  match owner with
  | some file => (m.instructions file.pool).mapError .undecodable
  | none => if m.code.isNone then .ok [] else .error (.detached m.signature)

end Method

end Callsite
