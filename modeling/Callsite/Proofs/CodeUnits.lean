import Callsite.Proofs.TextTokens
import Mathlib.Data.List.Chain

/-!
# Texts as code units

A class file writes a text as 16-bit units, each for itself, so that a supplementary code point comes
as two surrogates. What is written for any units is read as the text that they denote in UTF-16, and
no two sequences of units are read as the same text.
-/

namespace Callsite

-- ---------------------------------------------------------------------------
-- UTF-16
-- ---------------------------------------------------------------------------

namespace Utf16

def isHigh (u : UInt16) : Bool := 0xD800 ≤ u && u ≤ 0xDBFF

def isLow (u : UInt16) : Bool := 0xDC00 ≤ u && u ≤ 0xDFFF

def single (u : UInt16) : CodePoint := CodePoint.ofNat u.toNat

def pair (high low : UInt16) : CodePoint :=
  CodePoint.ofNat (0x10000 + (high.toNat - 0xD800) * 0x400 + (low.toNat - 0xDC00))

/-- The text that units denote: a high surrogate and a low one right after it are one code point, any
other unit is a code point by itself. -/
def decode : List UInt16 → Text
  | u :: v :: rest =>
    if isHigh u && isLow v then pair u v :: decode rest else single u :: decode (v :: rest)
  | [u] => [single u]
  | [] => []

def encodePoint (c : CodePoint) : List UInt16 :=
  if c.val < 0x10000 then [UInt16.ofNat c.val]
  else [UInt16.ofNat (0xD800 + (c.val - 0x10000) / 0x400),
    UInt16.ofNat (0xDC00 + (c.val - 0x10000) % 0x400)]

def encode (t : Text) : List UInt16 := t.flatMap encodePoint

theorem encode_cons (c : CodePoint) (t : Text) : encode (c :: t) = encodePoint c ++ encode t := rfl

theorem isHigh_iff : isHigh u = true ↔ 0xD800 ≤ u.toNat ∧ u.toNat ≤ 0xDBFF := by
  simp [isHigh, UInt16.le_iff_toNat_le]

theorem isLow_iff : isLow u = true ↔ 0xDC00 ≤ u.toNat ∧ u.toNat ≤ 0xDFFF := by
  simp [isLow, UInt16.le_iff_toNat_le]

theorem val_single (u : UInt16) : (single u).val = u.toNat := by
  have hu := u.toNat_lt
  exact Nat.mod_eq_of_lt (by omega)

theorem val_pair (hu : isHigh u = true) (hv : isLow v = true) :
    (pair u v).val = 0x10000 + (u.toNat - 0xD800) * 0x400 + (v.toNat - 0xDC00) := by
  rw [isHigh_iff] at hu
  rw [isLow_iff] at hv
  exact Nat.mod_eq_of_lt (by omega)

theorem isHighSurrogate_single (u : UInt16) : (single u).isHighSurrogate = isHigh u := by
  simp only [CodePoint.isHighSurrogate, isHigh, val_single, UInt16.le_iff_toNat_le,
    UInt16.reduceToNat]

theorem isLowSurrogate_single (u : UInt16) : (single u).isLowSurrogate = isLow u := by
  simp only [CodePoint.isLowSurrogate, isLow, val_single, UInt16.le_iff_toNat_le,
    UInt16.reduceToNat]

theorem joined_singles (units : List UInt16) :
    ModifiedUtf8.joined (units.map single) = decode units := by
  induction units using List.twoStepInduction with
  | nil => rfl
  | singleton u => rfl
  | cons_cons u v rest ih ih' =>
    have hpair : CodePoint.ofPair (single u) (single v) = pair u v := by
      rw [CodePoint.ofPair, val_single, val_single, pair]
    rw [List.map_cons, List.map_cons, ModifiedUtf8.joined, decode, isHighSurrogate_single,
      isLowSurrogate_single, hpair, ih, ← ih' v, List.map_cons]

-- ---------------------------------------------------------------------------
-- The units of a text
-- ---------------------------------------------------------------------------

theorem encodePoint_single (u : UInt16) : encodePoint (single u) = [u] := by
  rw [encodePoint, val_single, if_pos u.toNat_lt, UInt16.ofNat_toNat]

theorem encodePoint_pair (hu : isHigh u = true) (hv : isLow v = true) :
    encodePoint (pair u v) = [u, v] := by
  rw [encodePoint, val_pair hu hv, if_neg (by omega)]
  rw [isHigh_iff] at hu
  rw [isLow_iff] at hv
  simp only [List.cons.injEq, and_true, ← UInt16.toNat_inj, UInt16.toNat_ofNat']
  omega

theorem encode_decode (units : List UInt16) : encode (decode units) = units := by
  induction units using List.twoStepInduction with
  | nil => rfl
  | singleton u => simp [decode, encode, encodePoint_single]
  | cons_cons u v rest ih ih' =>
    rw [decode]
    split
    next hpair =>
      rw [Bool.and_eq_true] at hpair
      rw [encode_cons, encodePoint_pair hpair.1 hpair.2, ih]
      rfl
    next =>
      rw [encode_cons, encodePoint_single, ih' v]
      rfl

theorem exists_toNat (h : n < 0x10000) : ∃ u : UInt16, u.toNat = n :=
  ⟨UInt16.ofNat n, UInt16.toNat_ofNat_of_lt' h⟩

theorem exists_units (c : CodePoint) : (∃ u, c = single u) ∨
    ∃ u v, isHigh u = true ∧ isLow v = true ∧ c = pair u v := by
  have hc := c.isLt
  by_cases hval : c.val < 0x10000
  · obtain ⟨u, hu⟩ := exists_toNat hval
    exact .inl ⟨u, Fin.ext (by rw [val_single, hu])⟩
  · obtain ⟨u, hu⟩ := exists_toNat (show 0xD800 + (c.val - 0x10000) / 0x400 < 0x10000 by omega)
    obtain ⟨v, hv⟩ := exists_toNat (show 0xDC00 + (c.val - 0x10000) % 0x400 < 0x10000 by omega)
    have hhigh : isHigh u = true := isHigh_iff.mpr (by omega)
    have hlow : isLow v = true := isLow_iff.mpr (by omega)
    refine .inr ⟨u, v, hhigh, hlow, Fin.ext ?_⟩
    rw [val_pair hhigh hlow]
    omega

theorem decode_pair (hu : isHigh u = true) (hv : isLow v = true) (units : List UInt16) :
    decode (u :: v :: units) = pair u v :: decode units := by
  simp [decode, hu, hv]

theorem decode_single (h : ∀ v rest, units = v :: rest → ¬(isHigh u = true ∧ isLow v = true)) :
    decode (u :: units) = single u :: decode units := by
  cases units with
  | nil => rfl
  | cons v rest =>
    have hnot := h v rest rfl
    rw [decode, if_neg (by simpa using hnot)]

theorem isLowSurrogate_of_isLow (h : encode (d :: t) = v :: units) (hv : isLow v = true) :
    d.isLowSurrogate = true := by
  rw [encode_cons] at h
  rcases exists_units d with ⟨w, rfl⟩ | ⟨w, x, hw, hx, rfl⟩
  · rw [encodePoint_single] at h
    cases h
    rw [isLowSurrogate_single, hv]
  · rw [encodePoint_pair hw hx] at h
    cases h
    -- the first unit of a pair is high
    rw [isHigh_iff] at hw
    rw [isLow_iff] at hv
    omega

theorem decode_encode (h : t.IsChain fun c d => ¬ModifiedUtf8.Pairs c d) :
    decode (encode t) = t := by
  induction t with
  | nil => rfl
  | cons c t ih =>
    have hrest := ih h.tail
    rw [encode_cons]
    rcases exists_units c with ⟨u, rfl⟩ | ⟨u, v, hu, hv, rfl⟩
    · rw [encodePoint_single, List.singleton_append, decode_single, hrest]
      -- the next unit is low only where a low surrogate follows, and none follows a high one
      rintro v units hunits ⟨hu, hv⟩
      cases t with
      | nil => cases hunits
      | cons d t =>
        refine (List.isChain_cons_cons.mp h).1 ⟨?_, isLowSurrogate_of_isLow hunits hv⟩
        rw [isHighSurrogate_single, hu]
    · rw [encodePoint_pair hu hv]
      exact (decode_pair hu hv _).trans (congrArg _ hrest)

/-- The text of units is the only one with these units in which no two surrogates could be joined. -/
theorem decode_eq_iff {units : List UInt16} : decode units = t ↔
    encode t = units ∧ t.IsChain fun c d => ¬ModifiedUtf8.Pairs c d := by
  constructor
  · rintro rfl
    refine ⟨encode_decode units, ?_⟩
    rw [← joined_singles]
    exact ModifiedUtf8.joined_unpaired _
  · rintro ⟨rfl, h⟩
    exact decode_encode h

end Utf16

-- ---------------------------------------------------------------------------
-- Written units
-- ---------------------------------------------------------------------------

namespace ModifiedUtf8

/-- A unit as class files write it. NUL takes two bytes, so that no byte is zero. -/
def unitBytes (u : UInt16) : List UInt8 :=
  let n := u.toNat
  if 1 ≤ n ∧ n ≤ 0x7F then [UInt8.ofNat n]
  else if n ≤ 0x7FF then [UInt8.ofNat (0xC0 + n / 64), UInt8.ofNat (0x80 + n % 64)]
  else [UInt8.ofNat (0xE0 + n / 4096), UInt8.ofNat (0x80 + n / 64 % 64), UInt8.ofNat (0x80 + n % 64)]

theorem encodePoint_single (h : u.toNat ≠ 0) :
    Utf8.encodePoint (Utf16.single u) = unitBytes u := by
  have hu := u.toNat_lt
  simp only [Utf8.encodePoint, Utf16.val_single, unitBytes, Utf8.continuation]
  by_cases hone : u.toNat < 0x80
  · rw [if_pos hone, if_pos (by omega)]
  · by_cases htwo : u.toNat < 0x800
    · rw [if_neg hone, if_pos htwo, if_neg (by omega), if_pos (by omega)]
    · rw [if_neg hone, if_neg htwo, if_pos hu, if_neg (by omega), if_neg (by omega)]

theorem exists_unitToken (u : UInt16) :
    ∃ token : Token, token.bytes = unitBytes u ∧ token.value = Utf16.single u := by
  by_cases h : u.toNat = 0
  · obtain rfl : u = 0 := UInt16.toNat_inj.mp h
    exact ⟨.zero, rfl, rfl⟩
  · rw [← encodePoint_single h]
    exact exists_token (Utf16.single u)

theorem exists_unitTokens (units : List UInt16) :
    ∃ tokens : List Token, tokens.flatMap Token.bytes = units.flatMap unitBytes ∧
      tokens.map Token.value = units.map Utf16.single := by
  induction units with
  | nil => exact ⟨[], rfl, rfl⟩
  | cons u units ih =>
    obtain ⟨token, hbytes, hvalue⟩ := exists_unitToken u
    obtain ⟨tokens, hrest, hvalues⟩ := ih
    exact ⟨token :: tokens, by simp [hbytes, hrest], by simp [hvalue, hvalues]⟩

theorem decode?_unitBytes (units : List UInt16) :
    decode? (units.flatMap unitBytes) = some (Utf16.decode units) := by
  obtain ⟨tokens, hbytes, hvalues⟩ := exists_unitTokens units
  refine decode?_eq_some_iff_tokens.mpr ⟨tokens, hbytes, ?_⟩
  rw [hvalues, Utf16.joined_singles]

/-- Written units are read as the text that they denote, which is the one text with these units that
holds no pair of surrogates. Other units are read as another text. -/
theorem decode?_units (units : List UInt16) :
    decode? (units.flatMap unitBytes) = some (Utf16.decode units) ∧
    (∀ text, decode? (units.flatMap unitBytes) = some text ↔
      Utf16.encode text = units ∧ text.IsChain fun c d => ¬Pairs c d) ∧
    ∀ others, decode? (others.flatMap unitBytes) = decode? (units.flatMap unitBytes) ↔
      others = units := by
  refine ⟨decode?_unitBytes units, fun text => ?_, fun others => ?_⟩
  · rw [decode?_unitBytes, Option.some.injEq, Utf16.decode_eq_iff]
  · constructor
    · intro h
      rw [decode?_unitBytes, decode?_unitBytes, Option.some.injEq] at h
      rw [← Utf16.encode_decode others, h, Utf16.encode_decode]
    · rintro rfl
      rfl

/-- NUL, a low surrogate before a high one, and a pair. -/
example : decode? ([0, 0xDC00, 0xD83D, 0xD83D, 0xDE00].flatMap unitBytes) =
    some [CodePoint.ofNat 0, CodePoint.ofNat 0xDC00, CodePoint.ofNat 0xD83D,
      CodePoint.ofNat 0x1F600] := by decide

end ModifiedUtf8

end Callsite
