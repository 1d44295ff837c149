import Callsite.ClassFile.ClassFile
import Callsite.Proofs.PoolEncoding

/-!
# Written class files

A `ClassSource` is a class file before it is written: tables that fit their counts, and indices
together with what they resolve to in the pool of the class. Decoding what is written for it gives
the class file that it describes.
-/

namespace Callsite

/-- Rows that can be counted in a field of two bytes. -/
abbrev Table (α : Type) := { rows : List α // rows.length < 0x10000 }

/-- The number of rows, then the rows. -/
def Table.bytes (encode : α → List UInt8) (table : Table α) : List UInt8 :=
  bigEndian 2 table.val.length ++ table.val.flatMap encode

/-- An attribute that is only passed over; its name need not resolve. -/
structure Attribute where
  name : UInt16
  body : List UInt8
  fits : body.length < 0x100000000

def Attribute.bytes (a : Attribute) : List UInt8 :=
  field2 a.name ++ (bigEndian 4 a.body.length ++ a.body)

structure FieldSource where
  access : UInt16
  name : UInt16
  descriptor : UInt16
  attributes : Table Attribute

def FieldSource.bytes (f : FieldSource) : List UInt8 :=
  field2 f.access ++ field2 f.name ++ field2 f.descriptor ++ f.attributes.bytes Attribute.bytes

structure TextIndex (pool : ConstantPool) where
  index : UInt16
  text : Text
  resolves : pool.utf8 index.toNat = .ok text

structure ClassIndex (pool : ConstantPool) where
  index : UInt16
  name : Text
  resolves : pool.className index.toNat = .ok name

-- ---------------------------------------------------------------------------
-- Methods
-- ---------------------------------------------------------------------------

/-- The body of a `Code` attribute. An entry of the handler table has eight bytes. -/
structure CodeSource where
  maxStack : UInt16
  maxLocals : UInt16
  code : List UInt8
  fits : code.length < 0x100000000
  handlers : Table UInt64
  attributes : Table Attribute

namespace CodeSource

def bytes (c : CodeSource) : List UInt8 :=
  field2 c.maxStack ++ (field2 c.maxLocals ++ (bigEndian 4 c.code.length ++ (c.code ++
    (c.handlers.bytes field8 ++ c.attributes.bytes Attribute.bytes))))

def layout (c : CodeSource) : Code :=
  .intact c.maxStack.toNat c.maxLocals.toNat c.code c.handlers.val.length

end CodeSource

/-- What an attribute holds: code that is laid out, or bytes of any kind. -/
inductive Content
  | code (body : CodeSource)
  | raw (body : List UInt8)

namespace Content

def bytes : Content → List UInt8
  | .code body => body.bytes
  | .raw body => body

/-- The code of the named method, when its `Code` attribute holds the content. -/
def layout (method : Text) : Content → Code
  | .code body => body.layout
  | .raw body => ClassFile.codeOfBody method body

end Content

structure MethodAttribute (pool : ConstantPool) where
  name : TextIndex pool
  content : Content
  fits : content.bytes.length < 0x100000000

namespace MethodAttribute

def bytes (a : MethodAttribute pool) : List UInt8 :=
  field2 a.name.index ++ (bigEndian 4 a.content.bytes.length ++ a.content.bytes)

def isCode (a : MethodAttribute pool) : Bool := a.name.text = Text.ofString "Code"

theorem isCode_iff (a : MethodAttribute pool) :
    a.isCode ↔ a.name.text = Text.ofString "Code" := decide_eq_true_iff

end MethodAttribute

structure MethodSource (pool : ConstantPool) where
  access : UInt16
  name : TextIndex pool
  descriptor : TextIndex pool
  attributes : Table (MethodAttribute pool)
  oneCode : attributes.val.countP MethodAttribute.isCode ≤ 1

namespace MethodSource

def bytes (m : MethodSource pool) : List UInt8 :=
  field2 m.access ++ (field2 m.name.index ++ (field2 m.descriptor.index ++
    m.attributes.bytes MethodAttribute.bytes))

def code? (m : MethodSource pool) : Option Content :=
  (m.attributes.val.find? MethodAttribute.isCode).map MethodAttribute.content

def method (m : MethodSource pool) : Method :=
  { access := m.access.toNat
    name := m.name.text
    descriptor := m.descriptor.text
    code := m.code?.map (Content.layout (m.name.text ++ m.descriptor.text)) }

end MethodSource

-- ---------------------------------------------------------------------------
-- Classes
-- ---------------------------------------------------------------------------

structure ClassSource where
  minor : UInt16
  major : UInt16
  supported : oldestMajor ≤ major.toNat
  constants : List PoolEntry
  fits : (constants.flatMap PoolEntry.slots).length + 1 < 0x10000
  access : UInt16
  name : ClassIndex (.ofEntries constants)
  superName : Option (ClassIndex (.ofEntries constants))
  interfaces : Table (ClassIndex (.ofEntries constants))
  fields : Table FieldSource
  methods : Table (MethodSource (.ofEntries constants))
  attributes : Table Attribute

namespace ClassSource

def pool (c : ClassSource) : ConstantPool := .ofEntries c.constants

/-- Index 0 stands for the absent superclass. -/
def superIndex (c : ClassSource) : UInt16 := (c.superName.map ClassIndex.index).getD 0

/-- Everything after the magic number. -/
def body (c : ClassSource) : List UInt8 :=
  field2 c.minor ++ (field2 c.major ++
    (bigEndian 2 ((c.constants.flatMap PoolEntry.slots).length + 1) ++
      (c.constants.flatMap PoolEntry.bytes ++ (field2 c.access ++ (field2 c.name.index ++
        (field2 c.superIndex ++ (c.interfaces.bytes (fun i => field2 i.index) ++
          (c.fields.bytes FieldSource.bytes ++ (c.methods.bytes MethodSource.bytes ++
            c.attributes.bytes Attribute.bytes)))))))))

def bytes (c : ClassSource) : List UInt8 := bigEndian 4 magic ++ c.body

def file (c : ClassSource) : ClassFile :=
  { minor := c.minor.toNat
    major := c.major.toNat
    pool := c.pool
    access := c.access.toNat
    name := c.name.name
    superName := c.superName.map ClassIndex.name
    interfaces := c.interfaces.val.map ClassIndex.name
    methods := c.methods.val.map MethodSource.method }

end ClassSource

-- ---------------------------------------------------------------------------
-- Tables and attributes
-- ---------------------------------------------------------------------------

theorem Decoder.reads_table {d : Decoder α} {encode : β → List UInt8} {value : β → α}
    {f : List α → Decoder γ} (table : Table β)
    (h : ∀ x ∈ table.val, Reads d (encode x) (value x))
    (hf : Reads (f (table.val.map value)) more c) :
    Reads (do f (← times (← u2) d)) (table.bytes encode ++ more) c := by
  rw [Table.bytes, List.append_assoc]
  exact (reads_u2 table.property).bind ((reads_times h).bind hf)

namespace ClassFile

open Decoder

variable {pool : ConstantPool}

theorem reads_skipAttribute (a : Attribute) : Reads skipAttribute a.bytes () := by
  refine (reads_skip (field2 a.name)).bind ?_
  exact (reads_u4 a.fits).bind (reads_skip a.body)

theorem reads_skipAttributes (table : Table Attribute) :
    Reads skipAttributes (table.bytes Attribute.bytes) () := by
  refine (reads_u2 table.property).bind ?_
  exact (reads_times fun a _ => reads_skipAttribute a).last (reads_pure ())

theorem reads_skipField (f : FieldSource) : Reads skipField f.bytes () :=
  (reads_skip (field2 f.access ++ field2 f.name ++ field2 f.descriptor)).bind
    (reads_skipAttributes f.attributes)

-- ---------------------------------------------------------------------------
-- Code
-- ---------------------------------------------------------------------------

theorem reads_decodeCodeBody (method : Text) (c : CodeSource) :
    Reads (decodeCodeBody method) c.bytes c.layout := by
  refine (reads_field2 c.maxStack).bind ?_
  refine (reads_field2 c.maxLocals).bind ?_
  refine (reads_u4 c.fits).bind ?_
  refine reads_get fun here faces => ?_
  rw [if_neg (Int.not_lt.mpr (Cursor.faces_append.mp faces).1.le_left)]
  refine (reads_take c.code).bind ?_
  rw [Table.bytes, List.append_assoc]
  refine (reads_u2 c.handlers.property).bind ?_
  have hcells : (c.handlers.val.flatMap field8).length = 8 * c.handlers.val.length :=
    length_flatMap_of_const fun w _ => length_field8 w
  have hskip := reads_skip (c.handlers.val.flatMap field8)
  rw [hcells] at hskip
  refine hskip.bind ?_
  exact (reads_skipAttributes c.attributes).last (reads_pure _)

theorem codeOfBody_bytes (method : Text) (content : Content) :
    codeOfBody method content.bytes = content.layout method := by
  cases content with
  | raw body => rfl
  | code body =>
    have hrun := reads_decodeCodeBody method body (Cursor.ofBytes body.bytes .malformedBytecode)
      (Cursor.faces_ofBytes.mpr List.prefix_rfl)
    rw [codeOfBody, Content.bytes, hrun]
    rfl

-- ---------------------------------------------------------------------------
-- Methods
-- ---------------------------------------------------------------------------

theorem reads_decodeAttribute (a : MethodAttribute pool) :
    Reads (decodeAttribute pool) a.bytes (a.name.text, a.content.bytes) := by
  refine (reads_field2 a.name.index).bind ?_
  refine (reads_ofPool a.name.resolves).bind ?_
  refine (reads_u4 a.fits).bind ?_
  exact (reads_take a.content.bytes).last (reads_pure _)

theorem reads_otherAttribute {a : MethodAttribute pool} (h : ¬ a.isCode)
    (hrest : Reads (decodeMethodCode pool method n found) more code) :
    Reads (decodeMethodCode pool method (n + 1) found) (a.bytes ++ more) code := by
  refine (reads_decodeAttribute a).bind ?_
  simp only [if_neg (mt a.isCode_iff.mpr h)]
  exact hrest

theorem reads_otherAttributes (method : Text) (found : Option Code)
    (attributes : List (MethodAttribute pool)) (h : ∀ a ∈ attributes, ¬ a.isCode) :
    Reads (decodeMethodCode pool method attributes.length found)
      (attributes.flatMap MethodAttribute.bytes) found := by
  induction attributes with
  | nil => exact reads_pure found
  | cons a rest ih =>
    have hrest := ih fun b hb => h b (List.mem_cons_of_mem a hb)
    exact reads_otherAttribute (h a List.mem_cons_self) hrest

/-- Attributes before the code are passed over, and those after it hold no second one. -/
theorem reads_decodeMethodCode (method : Text)
    (attributes : List (MethodAttribute pool)) (once : attributes.countP MethodAttribute.isCode ≤ 1) :
    Reads (decodeMethodCode pool method attributes.length none)
      (attributes.flatMap MethodAttribute.bytes)
      (((attributes.find? MethodAttribute.isCode).map MethodAttribute.content).map
        (Content.layout method)) := by
  induction attributes with
  | nil => exact reads_pure none
  | cons a rest ih =>
    by_cases h : a.isCode
    · have hothers : rest.countP MethodAttribute.isCode = 0 := by
        rw [List.countP_cons_of_pos h] at once
        omega
      rw [List.find?_cons_of_pos h, Option.map_some, Option.map_some, ← codeOfBody_bytes]
      refine (reads_decodeAttribute a).bind ?_
      simp only [if_pos (a.isCode_iff.mp h)]
      exact reads_otherAttributes method _ rest (List.countP_eq_zero.mp hothers)
    · rw [List.countP_cons_of_neg h] at once
      rw [List.find?_cons_of_neg h]
      exact reads_otherAttribute h (ih once)

theorem reads_decodeMethod (m : MethodSource pool) :
    Reads (decodeMethod pool) m.bytes m.method := by
  refine (reads_field2 m.access).bind ?_
  refine (reads_field2 m.name.index).bind ?_
  refine (reads_ofPool m.name.resolves).bind ?_
  refine (reads_field2 m.descriptor.index).bind ?_
  refine (reads_ofPool m.descriptor.resolves).bind ?_
  refine (reads_u2 m.attributes.property).bind ?_
  have hcode := reads_decodeMethodCode (m.name.text ++ m.descriptor.text) m.attributes.val m.oneCode
  exact hcode.last (reads_pure m.method)

-- ---------------------------------------------------------------------------
-- Classes
-- ---------------------------------------------------------------------------

theorem reads_decodeClassName (i : ClassIndex pool) :
    Reads (decodeClassName pool) (field2 i.index) i.name :=
  (reads_field2 i.index).last (reads_ofPool i.resolves)

theorem reads_decodeSuperName (superName : Option (ClassIndex pool)) :
    Reads (decodeSuperName pool) (field2 ((superName.map ClassIndex.index).getD 0))
      (superName.map ClassIndex.name) := by
  cases superName with
  | none => exact (reads_field2 0).last (reads_pure none)
  | some i =>
    -- no class stands at index 0
    have hzero : i.index.toNat ≠ 0 := by
      intro h
      have hresolves := i.resolves
      rw [h] at hresolves
      cases hresolves
    refine (reads_field2 i.index).last ?_
    rw [if_neg hzero]
    exact (reads_ofPool i.resolves).map some

theorem reads_decodeBody (c : ClassSource) : Reads decodeBody c.body c.file := by
  refine (reads_field2 c.minor).bind ?_
  refine (reads_field2 c.major).bind ?_
  rw [if_neg (Nat.not_lt.mpr c.supported)]
  refine (reads_u2 c.fits).bind ?_
  refine (ConstantPool.reads_decode c.constants).bind ?_
  refine (reads_field2 c.access).bind ?_
  refine (reads_decodeClassName c.name).bind ?_
  refine (reads_decodeSuperName c.superName).bind ?_
  refine reads_table c.interfaces (fun i _ => reads_decodeClassName i) ?_
  refine reads_table c.fields (fun f _ => reads_skipField f) ?_
  refine reads_table c.methods (fun m _ => reads_decodeMethod m) ?_
  exact (reads_skipAttributes c.attributes).last (reads_pure c.file)

/-- The magic number comes first, and nothing after the body matters. -/
theorem decode_of_reads (h : Reads decodeBody body file) (tail : List UInt8) :
    decode (bigEndian 4 magic ++ body ++ tail) = .ok file := by
  have hmagic : natOfBytes ((bigEndian 4 magic ++ body ++ tail).take 4) = magic := by
    rw [List.append_assoc, List.take_left' (length_bigEndian 4 magic)]
    exact natOfBytes_bigEndian (by decide)
  have hread : Reads (do skip 4; decodeBody) (bigEndian 4 magic ++ body) file :=
    (reads_skip (bigEndian 4 magic)).bind h
  have hrun := hread (Cursor.ofBytes (bigEndian 4 magic ++ body ++ tail))
    (Cursor.faces_ofBytes.mpr (List.prefix_append _ tail))
  rw [decode, if_pos hmagic, hrun]

/-- Decoding undoes writing, whatever stands after the class file. -/
theorem decode_written (c : ClassSource) (tail : List UInt8) :
    decode (c.bytes ++ tail) = .ok c.file :=
  decode_of_reads (reads_decodeBody c) tail

end ClassFile

namespace ClassSource

/-- The constants of a class `A` whose only method `f` calls itself. -/
def selfCallerConstants : List PoolEntry :=
  [.utf8 [0x41] "A" rfl (by decide), .classRef 1,
    .utf8 [0x43, 0x6F, 0x64, 0x65] "Code" rfl (by decide), .utf8 [0x66] "f" rfl (by decide),
    .utf8 [0x28, 0x29, 0x56] "()V" rfl (by decide), .nameAndType 4 5, .methodRef 2 6]

/-- The code is a call of the seventh constant, and a return. -/
def selfCallerMethod : MethodSource (.ofEntries selfCallerConstants) where
  access := 8
  name := ⟨4, "f", rfl⟩
  descriptor := ⟨5, "()V", rfl⟩
  attributes := ⟨[{
    name := ⟨3, "Code", rfl⟩
    content := .code ⟨2, 1, [0xB8, 0, 7, 0xB1], by decide, ⟨[], by decide⟩, ⟨[], by decide⟩⟩
    fits := by decide }], by decide⟩
  oneCode := by decide

def selfCaller : ClassSource where
  minor := 0
  major := 52
  supported := by decide
  constants := selfCallerConstants
  fits := by decide
  access := 0x20
  name := ⟨2, "A", rfl⟩
  superName := none
  interfaces := ⟨[], by decide⟩
  fields := ⟨[], by decide⟩
  methods := ⟨[selfCallerMethod], by decide⟩
  attributes := ⟨[], by decide⟩

end ClassSource

theorem ClassFile.decode_written_selfCaller :
    (ClassFile.decode (ClassSource.selfCaller.bytes ++ [0])).map ClassFile.methods =
      .ok [{ access := 8, name := "f", descriptor := "()V",
             code := some (.intact 2 1 [0xB8, 0, 7, 0xB1] 0) }] := by
  rw [decode_written ClassSource.selfCaller [0]]
  rfl

end Callsite
