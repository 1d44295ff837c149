import Callsite.Text.Utf8

/-!
# Modified UTF-8

The form in which class files hold text. NUL is written as the two bytes `C0 80`, and a
supplementary code point as two surrogates of three bytes each; surrogates without a partner are
kept. Plain UTF-8 is accepted as well.
-/

namespace Callsite.ModifiedUtf8

/-- Writes a zero byte for every pair `C0 80`. -/
def plainZeros (bytes : List UInt8) : List UInt8 :=
  bytes.foldr (fun b rest =>
    match rest with
    | b' :: tail => if b = 0xC0 && b' = 0x80 then 0 :: tail else b :: rest
    | [] => [b]) []

/-- A step of UTF-8 that takes surrogates too. -/
def next : Utf8.Step := fun bytes =>
  match Utf8.next bytes with
  | .ok r => .ok r
  | .error flaw =>
    match bytes with
    | b₀ :: b₁ :: b₂ :: rest =>
      if b₀ = 0xED && 0xA0 ≤ b₁ && b₁ ≤ 0xBF && Utf8.isContinuation b₂ then
        .ok (Utf8.assemble (b₀.toNat - 0xE0) [b₁, b₂], rest)
      else .error flaw
    | _ => .error flaw

/-- Puts a high surrogate and a low one right after it together. -/
def joinPairs (t : Text) : Text :=
  t.foldr (fun c rest =>
    match rest with
    | d :: tail =>
      if c.isHighSurrogate && d.isLowSurrogate then CodePoint.ofPair c d :: tail else c :: rest
    | [] => [c]) []

def decode? (bytes : List UInt8) : Option Text :=
  match Utf8.decode bytes with
  | .ok t => some t
  | .error _ =>
    match Utf8.decodeBy next (plainZeros bytes) with
    | .ok t => some (joinPairs t)
    | .error _ => none

end Callsite.ModifiedUtf8
