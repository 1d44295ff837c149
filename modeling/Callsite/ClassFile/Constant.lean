import Callsite.Text.Basic
import Callsite.Number.Binary64

/-!
# Constants

What one entry of a constant pool holds. Entries refer to each other by index.
-/

namespace Callsite

inductive ConstantKind
  | utf8
  | integer
  | float
  | long
  | double
  | classRef
  | string
  | fieldRef
  | methodRef
  | interfaceMethodRef
  | nameAndType
  | methodHandle
  | methodType
  | dynamic
  | invokeDynamic
  | module
  | package
  deriving DecidableEq, Repr

/-- The name of a kind in messages. -/
def ConstantKind.label : ConstantKind → String
  | .utf8 => "Utf8Info"
  | .integer => "IntegerInfo"
  | .float => "FloatInfo"
  | .long => "LongInfo"
  | .double => "DoubleInfo"
  | .classRef => "ClassInfo"
  | .string => "StringInfo"
  | .fieldRef => "FieldrefInfo"
  | .methodRef => "MethodrefInfo"
  | .interfaceMethodRef => "InterfaceMethodrefInfo"
  | .nameAndType => "NameAndTypeInfo"
  | .methodHandle => "MethodHandleInfo"
  | .methodType => "MethodTypeInfo"
  | .dynamic => "DynamicInfo"
  | .invokeDynamic => "InvokeDynamicInfo"
  | .module => "ModuleInfo"
  | .package => "PackageInfo"

def ConstantKind.all : List ConstantKind :=
  [.utf8, .integer, .float, .long, .double, .classRef, .string, .fieldRef, .methodRef,
    .interfaceMethodRef, .nameAndType, .methodHandle, .methodType, .dynamic, .invokeDynamic,
    .module, .package]

inductive Constant
  | utf8 (value : Text)
  | integer (value : Int)
  | float (value : Binary64)
  | long (value : Int)
  | double (value : Binary64)
  | classRef (name : Nat)
  | string (text : Nat)
  | fieldRef (owner nameAndType : Nat)
  | methodRef (owner nameAndType : Nat)
  | interfaceMethodRef (owner nameAndType : Nat)
  | nameAndType (name descriptor : Nat)
  | methodHandle (referenceKind reference : Nat)
  | methodType (descriptor : Nat)
  | dynamic (bootstrap nameAndType : Nat)
  | invokeDynamic (bootstrap nameAndType : Nat)
  | module (name : Nat)
  | package (name : Nat)
  deriving DecidableEq, Repr

namespace Constant

def kind : Constant → ConstantKind
  | .utf8 _ => .utf8
  | .integer _ => .integer
  | .float _ => .float
  | .long _ => .long
  | .double _ => .double
  | .classRef _ => .classRef
  | .string _ => .string
  | .fieldRef .. => .fieldRef
  | .methodRef .. => .methodRef
  | .interfaceMethodRef .. => .interfaceMethodRef
  | .nameAndType .. => .nameAndType
  | .methodHandle .. => .methodHandle
  | .methodType _ => .methodType
  | .dynamic .. => .dynamic
  | .invokeDynamic .. => .invokeDynamic
  | .module _ => .module
  | .package _ => .package

/-- Constants of eight bytes take two slots of the pool. -/
def isWide (c : Constant) : Bool := c.kind = .long || c.kind = .double

end Constant

end Callsite
