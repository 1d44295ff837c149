import Callsite.ClassFile.Fault

/-!
# Byte cursor

A big-endian cursor over bytes that do not change. Every read is checked against the end of the
data; a read that does not fit moves nothing and is charged to the kind of fault that the cursor
carries.
-/

namespace Callsite

/-- The number that bytes spell, the first being the most significant. -/
def natOfBytes (bytes : List UInt8) : Nat := bytes.foldl (fun n b => n * 256 + b.toNat) 0

/-- The two's complement reading of bytes. -/
def intOfBytes (bytes : List UInt8) : Int :=
  let n := natOfBytes bytes
  let span := Nat.pow 256 bytes.length
  if 2 * n < span then n else (n : Int) - span

structure Cursor where
  data : Array UInt8
  offset : Nat := 0
  blame : FaultKind := .malformedClassFile

namespace Cursor

def ofBytes (bytes : List UInt8) (blame : FaultKind := .malformedClassFile) : Cursor :=
  { data := bytes.toArray, blame }

/-- What is left; negative when the cursor stands past the end. -/
def left (c : Cursor) : Int := (c.data.size : Int) - c.offset

/-- The bytes from the cursor on. -/
def rest (c : Cursor) : List UInt8 := c.data.toList.drop c.offset

/-- The next `n` bytes, or as many of them as there are. -/
def ahead (c : Cursor) (n : Nat) : List UInt8 := (c.data.extract c.offset (c.offset + n)).toList

end Cursor

/-- A reader of class file parts: it moves a cursor, and stops with a fault where the bytes are not
what they should be. -/
abbrev Decoder := EStateM Fault Cursor

namespace Decoder

def skip (n : Int) : Decoder Unit := fun c =>
  if n < 0 then .error (.negativeLength c.blame n c.offset) c
  else if c.offset + n.toNat ≤ c.data.size then .ok () { c with offset := c.offset + n.toNat }
  else .error (.shortRead c.blame n.toNat c.offset c.left) c

def take (n : Int) : Decoder (List UInt8) := do
  let c ← get
  skip n
  return c.ahead n.toNat

def u1 : Decoder Nat := natOfBytes <$> take 1
def s1 : Decoder Int := intOfBytes <$> take 1
def u2 : Decoder Nat := natOfBytes <$> take 2
def u4 : Decoder Nat := natOfBytes <$> take 4
def s4 : Decoder Int := intOfBytes <$> take 4

def offset : Decoder Nat := Cursor.offset <$> get

/-- Charges the faulty reads of `d` to `kind`, and puts back what was charged before, whichever way
`d` ends. -/
def charging (kind : FaultKind) (d : Decoder α) : Decoder α := fun c =>
  match d { c with blame := kind } with
  | .ok a c' => .ok a { c' with blame := c.blame }
  | .error e c' => .error e { c' with blame := c.blame }

def ofPool (r : Except PoolFault α) : Decoder α :=
  match r with
  | .ok a => pure a
  | .error e => throw (.pool e)

def timesFrom (d : Decoder α) : Nat → List α → Decoder (List α)
  | 0, done => pure done.reverse
  | n + 1, done => do
    let a ← d
    timesFrom d n (a :: done)

/-- Runs `d` a number of times and collects what it gives. -/
def times (n : Nat) (d : Decoder α) : Decoder (List α) := timesFrom d n []

end Decoder

/-- The reads that a cursor offers. -/
inductive Read
  | u1
  | s1
  | u2
  | u4
  | s4
  | bytes (n : Int)
  | skip (n : Int)
  deriving DecidableEq, Repr

inductive ReadValue
  | number (n : Int)
  | bytes (raw : List UInt8)
  | nothing
  deriving DecidableEq, Repr

def Read.run : Read → Decoder ReadValue
  | .u1 => (fun n : Nat => .number n) <$> Decoder.u1
  | .s1 => .number <$> Decoder.s1
  | .u2 => (fun n : Nat => .number n) <$> Decoder.u2
  | .u4 => (fun n : Nat => .number n) <$> Decoder.u4
  | .s4 => .number <$> Decoder.s4
  | .bytes n => .bytes <$> Decoder.take n
  | .skip n => (fun _ => .nothing) <$> Decoder.skip n

end Callsite
