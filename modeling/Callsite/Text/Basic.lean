/-!
# Text

Names in class files may hold surrogates that belong to no pair, so a text is a list of code
points and not a `String`. Texts are ordered by code point, which is the order of lists.
-/

namespace Callsite

/-- A Unicode code point; surrogates are code points too. -/
abbrev CodePoint := Fin 0x110000

namespace CodePoint

/-- The code point with a number, which is taken to be in range. -/
def ofNat (n : Nat) : CodePoint := ⟨n % 0x110000, Nat.mod_lt n (by decide)⟩

def ofChar (c : Char) : CodePoint := ofNat c.toNat

instance : Coe Char CodePoint := ⟨ofChar⟩

def isHighSurrogate (c : CodePoint) : Bool := 0xD800 ≤ c.val && c.val ≤ 0xDBFF

def isLowSurrogate (c : CodePoint) : Bool := 0xDC00 ≤ c.val && c.val ≤ 0xDFFF

def isSurrogate (c : CodePoint) : Bool := 0xD800 ≤ c.val && c.val ≤ 0xDFFF

/-- The supplementary code point that a high and a low surrogate denote together. -/
def ofPair (high low : CodePoint) : CodePoint :=
  ofNat (0x10000 + (high.val - 0xD800) * 0x400 + (low.val - 0xDC00))

/-- Membership in a table of closed ranges. -/
def inRanges (ranges : List (Nat × Nat)) (c : CodePoint) : Bool :=
  ranges.any fun r => r.1 ≤ c.val && c.val ≤ r.2

end CodePoint

abbrev Text := List CodePoint

namespace Text

def ofString (s : String) : Text := s.toList.map CodePoint.ofChar

instance : Coe String Text := ⟨ofString⟩

/-- The text as a string, if no surrogate stands in it. -/
def toString? (t : Text) : Option String :=
  if t.any CodePoint.isSurrogate then none
  else some (String.ofList (t.map fun c => Char.ofNat c.val))

def ofNat (n : Nat) : Text := ofString (Nat.repr n)

def ofInt : Int → Text
  | .ofNat n => ofNat n
  | .negSucc n => CodePoint.ofChar '-' :: ofNat (n + 1)

/-- Lower-case hexadecimal digits, filled up with zeros to at least `width` places. -/
def hex (width n : Nat) : Text :=
  let digits := (Nat.toDigits 16 n).map CodePoint.ofChar
  List.replicate (width - digits.length) (CodePoint.ofChar '0') ++ digits

def ofBytesHex (bytes : List UInt8) : Text := bytes.flatMap fun b => hex 2 b.toNat

def startsWith (t start : Text) : Bool := start.isPrefixOf t

def endsWith (t ending : Text) : Bool := ending.isSuffixOf t

def replaceAll (t : Text) (old new : CodePoint) : Text := t.map fun c => if c = old then new else c

def stripLeading (t : Text) (c : CodePoint) : Text := t.dropWhile (· = c)

def join (separator : Text) (parts : List Text) : Text := List.intercalate separator parts

/-- The pieces between the occurrences of a separator; there is one more piece than separators. -/
def splitOn (t : Text) (separator : CodePoint) : List Text := List.splitOn separator t

/-- The pieces before and after the first separator, if there is one. -/
def cutAt? (t : Text) (separator : CodePoint) : Option (Text × Text) :=
  match t.dropWhile (· ≠ separator) with
  | [] => none
  | _ :: after => some (t.takeWhile (· ≠ separator), after)

end Text

end Callsite
