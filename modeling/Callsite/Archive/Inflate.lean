import Callsite.Text.Basic

/-!
# Inflate

Decompression of raw deflate streams. Bits are taken from the low end of each byte. A stream that
breaks off gives what was decompressed up to there; a stream that breaks a rule of the format is a
fault.
-/

namespace Callsite.Inflate

inductive Fault
  | blockType
  | storedLengths
  | tooManySymbols
  | codeLengthsSet
  | lengthRepeat
  | missingEndOfBlock
  | literalSet
  | distanceSet
  | literalCode
  | distanceCode
  | distanceTooFar
  deriving DecidableEq, Repr

def Fault.message : Fault → String
  | .blockType => "invalid block type"
  | .storedLengths => "invalid stored block lengths"
  | .tooManySymbols => "too many length or distance symbols"
  | .codeLengthsSet => "invalid code lengths set"
  | .lengthRepeat => "invalid bit length repeat"
  | .missingEndOfBlock => "invalid code -- missing end-of-block"
  | .literalSet => "invalid literal/lengths set"
  | .distanceSet => "invalid distances set"
  | .literalCode => "invalid literal/length code"
  | .distanceCode => "invalid distance code"
  | .distanceTooFar => "invalid distance too far back"

/-- Why decompression stops early. -/
inductive Stop
  | endOfInput
  | fault (cause : Fault)
  deriving DecidableEq, Repr

structure State where
  input : Array UInt8
  /-- The number of bits taken. -/
  position : Nat := 0
  output : Array UInt8 := #[]

abbrev Inflater := EStateM Stop State

def bit : Inflater Nat := fun s =>
  match s.input[s.position / 8]? with
  | some b => .ok (b.toNat >>> (s.position % 8) % 2) { s with position := s.position + 1 }
  | none => .error .endOfInput s

/-- The number that the next bits spell, lowest first. -/
def bits : Nat → Inflater Nat
  | 0 => pure 0
  | n + 1 => do
    let low ← bit
    let high ← bits n
    return low + 2 * high

def emit (b : UInt8) : Inflater Unit := modify fun s => { s with output := s.output.push b }

/-- A canonical prefix code: how many codes there are of each length, and the symbols in the order
of their codes. -/
structure Code where
  counts : Array Nat
  symbols : Array Nat

def maxBits : Nat := 15

namespace Code

def ofLengths (lengths : List Nat) : Code :=
  { counts := ((List.range (maxBits + 1)).map lengths.count).toArray
    symbols := ((List.range maxBits).flatMap fun n =>
      lengths.zipIdx.filterMap fun (l, symbol) => if l = n + 1 then some symbol else none).toArray }

def count (c : Code) (length : Nat) : Nat := c.counts.getD length 0

/-- The length of the longest code. -/
def longest (c : Code) : Nat :=
  ((List.range (maxBits + 1)).filter fun n => 0 < n && 0 < c.count n).getLast?.getD 0

/-- How many codes of the greatest length could still be added; negative if there are too many. -/
def room (c : Code) : Int :=
  (List.range maxBits).foldl (fun left n =>
    if left < 0 then left else 2 * left - c.count (n + 1)) 1

/-- A set of lengths that is not used up exactly is refused, but for a code without symbols and,
where `single` allows it, a single code of one bit. -/
def isUsable (c : Code) (single : Bool) : Bool :=
  c.longest = 0 || c.room = 0 || (c.room > 0 && single && c.longest = 1)

/-- Reads a code bit by bit: `first` is the first code of the length at hand and `index` the place
of its symbol. -/
def decodeFrom (c : Code) : Nat → Nat → Nat → Nat → Nat → Inflater (Option Nat)
  | 0, _, _, _, _ => pure none
  | left + 1, length, code, first, index => do
    let code := code + (← bit)
    let count := c.count length
    if code < first + count then return c.symbols[index + (code - first)]?
    else decodeFrom c left (length + 1) (2 * code) (2 * (first + count)) (index + count)

/-- The symbol of the next code; none if no symbol has it. -/
def decode (c : Code) : Inflater (Option Nat) := decodeFrom c (max 1 c.longest) 1 0 0 0

end Code

/-- The bases and extra bits of the match lengths, from symbol 257 on. -/
def lengthTable : List (Nat × Nat) :=
  [(3, 0), (4, 0), (5, 0), (6, 0), (7, 0), (8, 0), (9, 0), (10, 0), (11, 1), (13, 1), (15, 1),
    (17, 1), (19, 2), (23, 2), (27, 2), (31, 2), (35, 3), (43, 3), (51, 3), (59, 3), (67, 4),
    (83, 4), (99, 4), (115, 4), (131, 5), (163, 5), (195, 5), (227, 5), (258, 0)]

/-- The bases and extra bits of the distances. -/
def distanceTable : List (Nat × Nat) :=
  [(1, 0), (2, 0), (3, 0), (4, 0), (5, 1), (7, 1), (9, 2), (13, 2), (17, 3), (25, 3), (33, 4),
    (49, 4), (65, 5), (97, 5), (129, 6), (193, 6), (257, 7), (385, 7), (513, 8), (769, 8),
    (1025, 9), (1537, 9), (2049, 10), (3073, 10), (4097, 11), (6145, 11), (8193, 12), (12289, 12),
    (16385, 13), (24577, 13)]

/-- A base and what its extra bits add. -/
def extended (table : List (Nat × Nat)) (index : Nat) (fault : Fault) : Inflater Nat :=
  match table[index]? with
  | some (base, extra) => do return base + (← bits extra)
  | none => throw (.fault fault)

/-- Repeats bytes from a distance back, one by one, so that a match may overlap itself. -/
def copyBack (distance : Nat) : Nat → Inflater Unit
  | 0 => pure ()
  | n + 1 => do
    let s ← get
    emit (s.output.getD (s.output.size - distance) 0)
    copyBack distance n

def endOfBlock : Nat := 256

/-- Decompresses symbols up to the end of the block. Each takes at least a bit. -/
def compressed (literals distances : Code) : Nat → Inflater Unit
  | 0 => throw .endOfInput
  | fuel + 1 => do
    match ← literals.decode with
    | none => throw (.fault .literalCode)
    | some symbol =>
      if symbol < endOfBlock then
        emit (UInt8.ofNat symbol)
        compressed literals distances fuel
      else if symbol = endOfBlock then return ()
      else
        let length ← extended lengthTable (symbol - 257) .literalCode
        match ← distances.decode with
        | none => throw (.fault .distanceCode)
        | some symbol =>
          let distance ← extended distanceTable symbol .distanceCode
          if distance > (← get).output.size then throw (.fault .distanceTooFar)
          else
            copyBack distance length
            compressed literals distances fuel

def fixedLiterals : Code :=
  .ofLengths (List.replicate 144 8 ++ List.replicate 112 9 ++ List.replicate 24 7 ++
    List.replicate 8 8)

def fixedDistances : Code := .ofLengths (List.replicate 32 5)

/-- Copies bytes as they are, as many as there are of those asked for. -/
def copyStored : Nat → Inflater Unit
  | 0 => pure ()
  | n + 1 => do
    let b ← bits 8
    emit (UInt8.ofNat b)
    copyStored n

def stored : Inflater Unit := do
  modify fun s => { s with position := (s.position + 7) / 8 * 8 }
  let length ← bits 16
  let check ← bits 16
  if length + check ≠ 0xFFFF then throw (.fault .storedLengths)
  else copyStored length

/-- The order in which the lengths of the length codes come. -/
def lengthOrder : List Nat := [16, 17, 18, 0, 8, 7, 9, 6, 10, 5, 11, 4, 12, 3, 13, 2, 14, 1, 15]

def lengthCodes : List Nat → Inflater (List (Nat × Nat))
  | [] => pure []
  | symbol :: rest => do
    let length ← bits 3
    return (symbol, length) :: (← lengthCodes rest)

/-- Reads the lengths of the literal and distance codes, `wanted` of them. -/
def codeLengths (code : Code) (wanted : Nat) : Nat → Array Nat → Inflater (Array Nat)
  | 0, _ => throw .endOfInput
  | fuel + 1, done => do
    if done.size ≥ wanted then return done
    else
      let symbol := (← code.decode).getD 0
      if symbol < 16 then codeLengths code wanted fuel (done.push symbol)
      else
        let (value, extra, base) : Option Nat × Nat × Nat :=
          if symbol = 16 then (done.back?, 2, 3)
          else if symbol = 17 then (some 0, 3, 3)
          else (some 0, 7, 11)
        let count := base + (← bits extra)
        match value with
        | none => throw (.fault .lengthRepeat)
        | some value =>
          if done.size + count > wanted then throw (.fault .lengthRepeat)
          else codeLengths code wanted fuel (done ++ Array.replicate count value)

/-- Reads the two codes of a block. -/
def dynamicCodes : Inflater (Code × Code) := do
  let literalCount := 257 + (← bits 5)
  let distanceCount := 1 + (← bits 5)
  let lengthCount := 4 + (← bits 4)
  if literalCount > 286 || distanceCount > 30 then throw (.fault .tooManySymbols)
  else
    let given ← lengthCodes (lengthOrder.take lengthCount)
    let lengthCode := Code.ofLengths ((List.range 19).map fun symbol =>
      ((given.find? (·.1 = symbol)).map Prod.snd).getD 0)
    if !lengthCode.isUsable false then throw (.fault .codeLengthsSet)
    else
      let wanted := literalCount + distanceCount
      let lengths := (← codeLengths lengthCode wanted (wanted + 1) #[]).toList
      if lengths.getD endOfBlock 0 = 0 then throw (.fault .missingEndOfBlock)
      else
        let literals := Code.ofLengths (lengths.take literalCount)
        let distances := Code.ofLengths (lengths.drop literalCount)
        if !literals.isUsable true then throw (.fault .literalSet)
        else if !distances.isUsable true then throw (.fault .distanceSet)
        else return (literals, distances)

/-- Decompresses blocks up to the last. -/
def blocks (symbolLimit : Nat) : Nat → Inflater Unit
  | 0 => throw .endOfInput
  | fuel + 1 => do
    let last ← bit
    match ← bits 2 with
    | 0 => stored
    | 1 => compressed fixedLiterals fixedDistances symbolLimit
    | 2 => do
      let (literals, distances) ← dynamicCodes
      compressed literals distances symbolLimit
    | _ => throw (.fault .blockType)
    if last = 1 then return () else blocks symbolLimit fuel

/-- What a stream decompresses to, and whether it goes on to its last block. -/
structure Output where
  bytes : Array UInt8
  isWhole : Bool

def inflate (input : Array UInt8) : Except Fault Output :=
  let limit := 8 * input.size + 1
  match blocks limit limit { input } with
  | .ok _ s => .ok ⟨s.output, true⟩
  | .error .endOfInput s => .ok ⟨s.output, false⟩
  | .error (.fault cause) _ => .error cause

end Callsite.Inflate
