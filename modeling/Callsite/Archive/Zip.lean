import Callsite.Archive.Container
import Callsite.Archive.Crc32
import Callsite.Archive.Inflate
import Callsite.Text.Utf8

/-!
# Zip archives

A reader of zip archives from their central directory. Bytes may stand before the first entry and
after the end record; offsets are shifted by what the place of the end record shows to be missing or
extra. Entries are stored or deflated: the modules for other compression are missing.
-/

namespace Callsite.Zip

/-- The number that bytes spell, the first being the least significant. -/
def little (bytes : List UInt8) : Nat := bytes.foldr (fun b n => b.toNat + 256 * n) 0

def slice (data : Array UInt8) (start length : Nat) : List UInt8 :=
  (data.extract start (start + length)).toList

/-- The field of a record at an offset. -/
def field (bytes : List UInt8) (start length : Nat) : Nat := little ((bytes.drop start).take length)

/-- Names without the UTF-8 mark are in code page 437; these are its upper half. -/
def upperHalf : List Nat :=
  [0xC7, 0xFC, 0xE9, 0xE2, 0xE4, 0xE0, 0xE5, 0xE7, 0xEA, 0xEB, 0xE8, 0xEF, 0xEE, 0xEC, 0xC4, 0xC5,
    0xC9, 0xE6, 0xC6, 0xF4, 0xF6, 0xF2, 0xFB, 0xF9, 0xFF, 0xD6, 0xDC, 0xA2, 0xA3, 0xA5, 0x20A7,
    0x192, 0xE1, 0xED, 0xF3, 0xFA, 0xF1, 0xD1, 0xAA, 0xBA, 0xBF, 0x2310, 0xAC, 0xBD, 0xBC, 0xA1,
    0xAB, 0xBB, 0x2591, 0x2592, 0x2593, 0x2502, 0x2524, 0x2561, 0x2562, 0x2556, 0x2555, 0x2563,
    0x2551, 0x2557, 0x255D, 0x255C, 0x255B, 0x2510, 0x2514, 0x2534, 0x252C, 0x251C, 0x2500, 0x253C,
    0x255E, 0x255F, 0x255A, 0x2554, 0x2569, 0x2566, 0x2560, 0x2550, 0x256C, 0x2567, 0x2568, 0x2564,
    0x2565, 0x2559, 0x2558, 0x2552, 0x2553, 0x256B, 0x256A, 0x2518, 0x250C, 0x2588, 0x2584, 0x258C,
    0x2590, 0x2580, 0x3B1, 0xDF, 0x393, 0x3C0, 0x3A3, 0x3C3, 0xB5, 0x3C4, 0x3A6, 0x398, 0x3A9,
    0x3B4, 0x221E, 0x3C6, 0x3B5, 0x2229, 0x2261, 0xB1, 0x2265, 0x2264, 0x2320, 0x2321, 0xF7,
    0x2248, 0xB0, 0x2219, 0xB7, 0x221A, 0x207F, 0xB2, 0x25A0, 0xA0]

def oldName (raw : List UInt8) : Text :=
  raw.map fun b =>
    CodePoint.ofNat (if b < 0x80 then b.toNat else upperHalf.getD (b.toNat - 0x80) 0)

def utf8Mark : Nat := 11

def hasFlag (flags position : Nat) : Bool := flags.testBit position

def decodeName (flags : Nat) (raw : List UInt8) : Except Utf8.Fault Text :=
  if hasFlag flags utf8Mark then Utf8.decode raw else .ok (oldName raw)

/-- An entry of the central directory. -/
structure Member where
  fullName : Text
  flags : Nat
  method : Nat
  crc : Nat
  packedSize : Nat
  size : Nat
  offset : Int

/-- The name ends at the first NUL. -/
def Member.name (m : Member) : Text := m.fullName.takeWhile (·.val ≠ 0)

/-- Why an archive cannot be opened. -/
inductive OpenFault
  | notAZip
  | manyDisks
  | directoryOffset
  | truncatedDirectory
  | directoryMagic
  | encoding (fault : Utf8.Fault)
  | version (needed : Nat)
  | extraField (tag size : Nat)
  | zip64Field (field : String)

namespace OpenFault

def message : OpenFault → Text
  | .notAZip => "File is not a zip file"
  | .manyDisks => "zipfiles that span multiple disks are not supported"
  | .directoryOffset => "Bad offset for central directory"
  | .truncatedDirectory => "Truncated central directory"
  | .directoryMagic => "Bad magic number for central directory"
  | .encoding fault => fault.message
  | .version needed =>
    "zip file version " ++ Text.ofNat (needed / 10) ++ "." ++ Text.ofNat (needed % 10)
  | .extraField tag size =>
    "Corrupt extra field " ++ Text.hex 4 tag ++ " (size=" ++ Text.ofNat size ++ ")"
  | .zip64Field field => "Corrupt zip64 extra field. " ++ field ++ " not found."

def kind : OpenFault → Container.ErrorKind
  | .encoding _ => .encoding
  | .version _ => .unsupported
  | _ => .badContainer

def error (fault : OpenFault) : Container.Error := { kind := fault.kind, message := fault.message }

end OpenFault

/-- Why an entry cannot be read. -/
inductive EntryFault
  | offset
  | wideOffset
  | truncatedHeader
  | headerMagic
  | patched
  | strongEncryption
  | encoding (fault : Utf8.Fault)
  | nameMismatch (directory : Text) (header : List UInt8)
  | overlapped (name : Text)
  | encrypted (name : Text)
  | missing (module : String)
  | method
  | endOfFile
  | inflate (fault : Inflate.Fault)
  | crc (name : Text)

namespace EntryFault

def message : EntryFault → Text
  | .offset => "[Errno 22] Invalid argument"
  | .wideOffset => "cannot fit 'int' into an offset-sized integer"
  | .truncatedHeader => "Truncated file header"
  | .headerMagic => "Bad magic number for file header"
  | .patched => "compressed patched data (flag bit 5)"
  | .strongEncryption => "strong encryption (flag bit 6)"
  | .encoding fault => fault.message
  | .nameMismatch directory header =>
    "File name in directory " ++ directory.quoted ++ " and header " ++ Text.quotedBytes header ++
      " differ."
  | .overlapped name => "Overlapped entries: " ++ name.quoted ++ " (possible zip bomb)"
  | .encrypted name => "File " ++ name.quoted ++ " is encrypted, password required for extraction"
  | .missing module => "Compression requires the (missing) " ++ module ++ " module"
  | .method => "That compression method is not supported"
  | .endOfFile => ""
  | .inflate fault => "Error -3 while decompressing data: " ++ fault.message
  | .crc name => "Bad CRC-32 for file " ++ name.quoted

def kind : EntryFault → Container.ErrorKind
  | .offset => .system
  | .wideOffset => .other "ValueError"
  | .patched | .strongEncryption | .method => .unsupported
  | .encoding _ => .encoding
  | .encrypted _ | .missing _ => .runtime
  | .endOfFile => .endOfFile
  | .inflate _ => .inflate
  | .truncatedHeader | .headerMagic | .nameMismatch .. | .overlapped _ | .crc _ => .badContainer

def error (fault : EntryFault) : Container.Error := { kind := fault.kind, message := fault.message }

end EntryFault

def endMagic : List UInt8 := [0x50, 0x4B, 0x05, 0x06]
def directoryMagic : List UInt8 := [0x50, 0x4B, 0x01, 0x02]
def headerMagic : List UInt8 := [0x50, 0x4B, 0x03, 0x04]
def wideEndMagic : List UInt8 := [0x50, 0x4B, 0x06, 0x06]
def locatorMagic : List UInt8 := [0x50, 0x4B, 0x06, 0x07]

def endSize : Nat := 22
def wideEndSize : Nat := 56
def locatorSize : Nat := 20
def directorySize : Nat := 46
def headerSize : Nat := 30

/-- The last place at which the end record may start, searching backwards from a position. -/
def searchEnd (data : Array UInt8) (lowest : Nat) : Nat → Option Nat
  | 0 => if lowest = 0 && slice data 0 4 == endMagic then some 0 else none
  | n + 1 =>
    if n + 1 < lowest then none
    else if slice data (n + 1) 4 == endMagic then some (n + 1)
    else searchEnd data lowest n

/-- The place of the end record: right at the end of the file, or before a comment or other bytes
that follow it. -/
def endRecord? (data : Array UInt8) : Option Nat :=
  let size := data.size
  if size < endSize then none
  else
    let last := slice data (size - endSize) endSize
    if last.take 4 == endMagic && last.drop 20 == [0, 0] then some (size - endSize)
    else
      match searchEnd data (size - (0x10000 + endSize)) size with
      | some start => if start + endSize ≤ size then some start else none
      | none => none

/-- What is said of the central directory at the end of an archive. -/
structure DirectoryPlace where
  size : Nat
  offset : Nat
  /-- The number of bytes between the directory and the end record. -/
  gap : Nat

/-- Reads the end record at a place, or the wide end record before it, to which a locator between
them points. -/
def directoryPlace (data : Array UInt8) (place : Nat) : Except OpenFault DirectoryPlace :=
  let record := slice data place endSize
  let narrow : DirectoryPlace := { size := field record 12 4, offset := field record 16 4, gap := 0 }
  let locator := slice data (place - locatorSize) locatorSize
  if place < locatorSize || locator.take 4 != locatorMagic then .ok narrow
  else if field locator 4 4 ≠ 0 || field locator 16 4 > 1 then .error .manyDisks
  else if place < locatorSize + wideEndSize then .error .notAZip
  else
    let gap := wideEndSize + locatorSize
    let wide := slice data (place - gap) wideEndSize
    if wide.take 4 != wideEndMagic then .ok narrow
    else .ok { size := field wide 40 8, offset := field wide 48 8, gap }

/-- A size or offset that stands in the extra field when its own field is full. -/
def wideField (name : String) (value : Nat) (data : List UInt8) :
    Except OpenFault (Nat × List UInt8) :=
  if value = 0xFFFFFFFF then
    if data.length < 8 then .error (.zip64Field name) else .ok (little (data.take 8), data.drop 8)
  else .ok (value, data)

/-- Goes through the extra fields of an entry. -/
def applyExtra : Nat → List UInt8 → Member → Except OpenFault Member
  | 0, _, m => .ok m
  | fuel + 1, extra, m =>
    if extra.length < 4 then .ok m
    else
      let tag := field extra 0 2
      let length := field extra 2 2
      if length + 4 > extra.length then .error (.extraField tag length)
      else do
        let m ←
          if tag = 1 then do
            let data := (extra.drop 4).take length
            let (size, data) ← wideField "File size" m.size data
            let (packedSize, data) ← wideField "Compress size" m.packedSize data
            let (offset, _) ← wideField "Header offset" m.offset.toNat data
            pure { m with size, packedSize, offset }
          else pure m
        applyExtra fuel (extra.drop (length + 4)) m

def newestVersion : Nat := 63

/-- The entry at an offset of the central directory, and the size of its record. -/
def directoryEntry (directory : Array UInt8) (start : Nat) : Except OpenFault (Member × Nat) :=
  let record := slice directory start directorySize
  if record.length ≠ directorySize then .error .truncatedDirectory
  else if record.take 4 != directoryMagic then .error .directoryMagic
  else
    let nameLength := field record 28 2
    let extraLength := field record 30 2
    let commentLength := field record 32 2
    let flags := field record 8 2
    match decodeName flags (slice directory (start + directorySize) nameLength) with
    | .error fault => .error (.encoding fault)
    | .ok fullName =>
      let version := field record 6 1
      if version > newestVersion then .error (.version version)
      else
        let extra := slice directory (start + directorySize + nameLength) extraLength
        let m : Member :=
          { fullName
            flags
            method := field record 10 2
            crc := field record 16 4
            packedSize := field record 20 4
            size := field record 24 4
            offset := field record 42 4 }
        match applyExtra extra.length extra m with
        | .error fault => .error fault
        | .ok m => .ok (m, directorySize + nameLength + extraLength + commentLength)

/-- The entries of the central directory from an offset on. Every record takes some bytes. -/
def directoryEntries (directory : Array UInt8) (size : Nat) :
    Nat → Nat → List Member → Except OpenFault (List Member)
  | 0, _, done => .ok done.reverse
  | fuel + 1, start, done =>
    if start ≥ size then .ok done.reverse
    else
      match directoryEntry directory start with
      | .error e => .error e
      | .ok (m, length) => directoryEntries directory size fuel (start + length) (m :: done)

/-- An opened archive: its entries, each with the place where the next part of the file begins. -/
structure Archive where
  data : Array UInt8
  members : List (Member × Int)

/-- The bound of each entry: the next greater offset of an entry, or the directory. Of entries at
the same offset all but the first are bounded by that offset itself. -/
def bounds (start : Int) (members : List Member) : List (Member × Int) :=
  let placed := members.zipIdx
  let falling := placed.mergeSort fun a b => decide (a.1.offset ≥ b.1.offset)
  let ends := falling.zip (start :: falling.map (·.1.offset))
  placed.map fun (m, index) =>
    (m, ((ends.find? (·.1.2 = index)).map Prod.snd).getD start)

def openArchive (data : Array UInt8) : Except OpenFault Archive :=
  match endRecord? data with
  | none => .error .notAZip
  | some place => do
    let directory ← directoryPlace data place
    let shift : Int := (place : Int) - directory.size - directory.offset - directory.gap
    let start : Int := directory.offset + shift
    if start < 0 then throw .directoryOffset
    else
      let bytes := data.extract start.toNat (start.toNat + directory.size)
      let members ← directoryEntries bytes directory.size (directory.size + 1) 0 []
      let shifted := members.map fun m => { m with offset := m.offset + shift }
      return { data, members := bounds start shifted }

/-- The content of an entry, after decompression and cut to its size. Where the file ends before
the packed bytes do, what there is must give the whole content. -/
def unpack (m : Member) (packed : List UInt8) : Except EntryFault (List UInt8) :=
  let broken := packed.length < m.packedSize
  match m.method with
  | 0 =>
    if broken && (packed.isEmpty || packed.length < m.size) then .error .endOfFile
    else .ok (packed.take m.size)
  | 8 =>
    if broken && packed.isEmpty then .error .endOfFile
    else match Inflate.inflate packed.toArray with
      | .ok output =>
        if broken && !output.isWhole && output.bytes.size < m.size then .error .endOfFile
        else .ok (output.bytes.toList.take m.size)
      | .error fault => .error (.inflate fault)
  | 12 => .error (.missing "bz2")
  | 14 => .error (.missing "lzma")
  | _ => .error .method

/-- The place from which on no offset can be asked for. -/
def offsetLimit : Int := 0x8000000000000000

/-- Reads an entry by way of its local header. -/
def readMember (data : Array UInt8) (m : Member) (bound : Int) : Except EntryFault (List UInt8) :=
  if m.offset < -offsetLimit || offsetLimit ≤ m.offset then .error .wideOffset
  else if m.offset < 0 then .error .offset
  else
    let start := m.offset.toNat
    let header := slice data start headerSize
    if header.length ≠ headerSize then .error .truncatedHeader
    else if header.take 4 != headerMagic then .error .headerMagic
    else
      let nameStart := start + headerSize
      let rawName := slice data nameStart (field header 26 2)
      let content := min (nameStart + rawName.length + field header 28 2) data.size
      if hasFlag m.flags 5 then .error .patched
      else if hasFlag m.flags 6 then .error .strongEncryption
      else
        match decodeName (field header 6 2) rawName with
        | .error fault => .error (.encoding fault)
        | .ok name =>
          if name ≠ m.fullName then .error (.nameMismatch m.fullName rawName)
          else if (content : Int) + m.packedSize > bound then .error (.overlapped m.fullName)
          else if hasFlag m.flags 0 then .error (.encrypted m.fullName)
          else do
            let bytes ← unpack m (slice data content m.packedSize)
            if (crc32 bytes).toNat = m.crc then return bytes else throw (.crc m.name)

/-- Whether a name is that of a directory, as its last character tells. An empty name has none, and
is refused where the character is looked up all the same. -/
def isDirectory (refusesEmptyName : Bool) (name : Text) : Except Container.Error Bool :=
  if refusesEmptyName && name.isEmpty then
    .error { kind := .other "IndexError", message := "string index out of range" }
  else .ok (name.endsWith "/")

def member (refusesEmptyName : Bool) (data : Array UInt8) (entry : Member × Int) :
    Container.Member where
  name := entry.1.name
  isDirectory := isDirectory refusesEmptyName entry.1.name
  content _ := (readMember data entry.1 entry.2).mapError EntryFault.error

/-- Zip archives as containers. -/
def containers (refusesEmptyName : Bool) : Container.Reader := fun content =>
  match openArchive content.toArray with
  | .error fault => .error fault.error
  | .ok archive => .ok (archive.members.map (member refusesEmptyName archive.data))

end Callsite.Zip
