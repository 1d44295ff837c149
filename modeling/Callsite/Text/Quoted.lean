import Callsite.Text.Printable

/-!
# Quoted text and bytes

How a text or a byte string is shown inside a message: in apostrophes, or in double quotes when it
holds an apostrophe and no double quote, with whatever cannot be shown written as an escape.
-/

namespace Callsite

def apostrophe : CodePoint := CodePoint.ofNat 0x27
def quotationMark : CodePoint := CodePoint.ofNat 0x22
def backslash : CodePoint := CodePoint.ofNat 0x5C
def tabulator : CodePoint := CodePoint.ofNat 0x09
def newline : CodePoint := CodePoint.ofNat 0x0A
def carriageReturn : CodePoint := CodePoint.ofNat 0x0D

namespace Text

def quoteMark (hasApostrophe hasQuotation : Bool) : CodePoint :=
  if hasApostrophe && !hasQuotation then quotationMark else apostrophe

/-- The escapes with a letter of their own. -/
def letterEscape? (c : CodePoint) : Option CodePoint :=
  if c = tabulator then some (CodePoint.ofChar 't')
  else if c = newline then some (CodePoint.ofChar 'n')
  else if c = carriageReturn then some (CodePoint.ofChar 'r')
  else none

/-- A numeric escape in the shortest of its three widths. -/
def numericEscape (c : CodePoint) : Text :=
  if c.val ≤ 0xFF then "\\x" ++ hex 2 c.val
  else if c.val ≤ 0xFFFF then "\\u" ++ hex 4 c.val
  else "\\U" ++ hex 8 c.val

def quotedPoint (mark c : CodePoint) : Text :=
  if c = mark || c = backslash then [backslash, c]
  else match letterEscape? c with
    | some letter => [backslash, letter]
    | none => if c.isPrintable then [c] else numericEscape c

def quoted (t : Text) : Text :=
  let mark := quoteMark (t.contains apostrophe) (t.contains quotationMark)
  mark :: t.flatMap (quotedPoint mark) ++ [mark]

/-- Bytes outside printable ASCII are always escaped. -/
def quotedByte (mark : CodePoint) (b : UInt8) : Text :=
  if b.toNat < 0x7F then quotedPoint mark (CodePoint.ofNat b.toNat)
  else "\\x" ++ hex 2 b.toNat

def quotedBytes (bytes : List UInt8) : Text :=
  let mark := quoteMark (bytes.contains 0x27) (bytes.contains 0x22)
  CodePoint.ofChar 'b' :: mark :: bytes.flatMap (quotedByte mark) ++ [mark]

end Text

end Callsite
