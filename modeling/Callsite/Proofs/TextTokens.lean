import Callsite.Proofs.FaultKinds
import Callsite.Proofs.Utf8Encoding

/-!
# The grammar of modified UTF-8

A modified text is a sequence of tokens: code points in strict UTF-8, the long form of NUL, and
surrogates of three bytes. Its value is the sequence of the tokens' values in which every high surrogate
is joined with a low one right after it.
-/

namespace Callsite.ModifiedUtf8

/-- A token of modified UTF-8. -/
inductive Token
  | scalar (c : CodePoint) (plain : c.isSurrogate = false)
  | zero
  | surrogate (b₁ b₂ : UInt8) (second : 0xA0 ≤ b₁ ∧ b₁ ≤ 0xBF) (third : 0x80 ≤ b₂ ∧ b₂ ≤ 0xBF)

namespace Token

def bytes : Token → List UInt8
  | .scalar c _ => Utf8.encodePoint c
  | .zero => [0xC0, 0x80]
  | .surrogate b₁ b₂ _ _ => [0xED, b₁, b₂]

def value : Token → CodePoint
  | .scalar c _ => c
  | .zero => CodePoint.ofNat 0
  | .surrogate b₁ b₂ _ _ => CodePoint.ofNat (0xD000 + (b₁.toNat - 0x80) * 64 + (b₂.toNat - 0x80))

end Token

/-- Joins surrogates from left to right. -/
def joined : Text → Text
  | c :: d :: rest =>
    if c.isHighSurrogate && d.isLowSurrogate then CodePoint.ofPair c d :: joined rest
    else c :: joined (d :: rest)
  | t => t

-- ---------------------------------------------------------------------------
-- Long zeros
-- ---------------------------------------------------------------------------

theorem plainZeros_cons (b : UInt8) (bytes : List UInt8) : plainZeros (b :: bytes) =
    match plainZeros bytes with
    | b' :: tail => if b = 0xC0 && b' = 0x80 then 0 :: tail else b :: b' :: tail
    | [] => [b] := by
  rw [plainZeros, List.foldr_cons, ← plainZeros]
  split <;> simp_all

theorem plainZeros_of_ne (h : b ≠ 0xC0) : plainZeros (b :: bytes) = b :: plainZeros bytes := by
  rw [plainZeros_cons]
  split <;> simp_all

/-- Only zeros are new, so the byte after a `C0` is not one that came to stand there. -/
theorem plainZeros_long (bytes : List UInt8) :
    plainZeros (0xC0 :: 0x80 :: bytes) = 0 :: plainZeros bytes := by
  rw [plainZeros_cons, plainZeros_of_ne (by decide)]
  rfl

theorem plainZeros_append (h : (0xC0 : UInt8) ∉ front) (bytes : List UInt8) :
    plainZeros (front ++ bytes) = front ++ plainZeros bytes := by
  induction front with
  | nil => rfl
  | cons b front ih =>
    rw [List.mem_cons, not_or] at h
    rw [List.cons_append, plainZeros_of_ne (Ne.symm h.1), ih h.2, List.cons_append]

/-- A byte in front was there before, or is the zero of a pair. -/
theorem plainZeros_eq_cons (h : plainZeros raw = b :: rest) :
    (∃ r, raw = b :: r ∧ plainZeros r = rest) ∨
      b = 0 ∧ ∃ r, raw = 0xC0 :: 0x80 :: r ∧ plainZeros r = rest := by
  induction raw generalizing b rest with
  | nil => cases h
  | cons b₀ raw ih =>
    rw [plainZeros_cons] at h
    split at h
    next b₁ tail htail =>
      split at h
      next hpair =>
        simp only [Bool.and_eq_true, decide_eq_true_eq] at hpair
        obtain ⟨rfl, rfl⟩ := hpair
        cases h
        -- the second byte of the pair is no zero, so it stood there from the start
        rcases ih htail with ⟨r, rfl, hr⟩ | ⟨hzero, -⟩
        · exact .inr ⟨rfl, r, rfl, hr⟩
        · exact absurd hzero (by decide)
      next =>
        cases h
        exact .inl ⟨raw, rfl, htail⟩
    next hnil =>
      cases h
      exact .inl ⟨raw, rfl, hnil⟩

theorem plainZeros_eq_append (h : (0 : UInt8) ∉ front) (hraw : plainZeros raw = front ++ rest) :
    ∃ r, raw = front ++ r ∧ plainZeros r = rest := by
  induction front generalizing raw with
  | nil => exact ⟨raw, rfl, hraw⟩
  | cons b front ih =>
    rw [List.mem_cons, not_or] at h
    rcases plainZeros_eq_cons hraw with ⟨r, rfl, hr⟩ | ⟨rfl, -⟩
    · obtain ⟨r', rfl, hr'⟩ := ih h.2 hr
      exact ⟨r', rfl, hr'⟩
    · exact absurd rfl h.1

-- ---------------------------------------------------------------------------
-- Tokens
-- ---------------------------------------------------------------------------

theorem spells_surrogate {b₁ b₂ : UInt8} {c : CodePoint} :
    Utf8.Spells [0xED, b₁, b₂] c.val ∧ c.isSurrogate = true ↔
      (0xA0 ≤ b₁ ∧ b₁ ≤ 0xBF) ∧ (0x80 ≤ b₂ ∧ b₂ ≤ 0xBF) ∧
      c = CodePoint.ofNat (0xD000 + (b₁.toNat - 0x80) * 64 + (b₂.toNat - 0x80)) := by
  simp only [Utf8.Spells, CodePoint.isSurrogate, CodePoint.ofNat, Fin.ext_iff,
    UInt8.le_iff_toNat_le, UInt8.reduceToNat, Bool.and_eq_true, decide_eq_true_eq]
  omega

theorem encodePoint_surrogate {c : CodePoint} (h : c.isSurrogate = true) :
    ∃ b₁ b₂, Utf8.encodePoint c = [0xED, b₁, b₂] := by
  simp only [CodePoint.isSurrogate, Bool.and_eq_true, decide_eq_true_eq] at h
  refine ⟨Utf8.continuation (c.val / 64), Utf8.continuation c.val, Utf8.Spells.encodePoint ?_⟩
  refine ⟨by omega, ?_, Utf8.toNat_continuation _, Utf8.toNat_continuation _⟩
  simp only [UInt8.reduceToNat]
  omega

/-- Strict UTF-8 gives surrogates up, so they come to the second attempt. -/
theorem utf8_next_surrogate (h : 0xA0 ≤ b₁) (bytes : List UInt8) :
    ∃ flaw, Utf8.next (0xED :: b₁ :: bytes) = .error flaw := by
  rw [UInt8.le_iff_toNat_le] at h
  rw [Utf8.next_three (by decide)]
  cases hstep : Utf8.three 0xED (b₁ :: bytes) with
  | error flaw => exact ⟨flaw, rfl⟩
  | ok r =>
    obtain ⟨_, _, hbytes, hfollow, -⟩ := Utf8.three_ok.mp hstep
    cases hbytes
    have := (Utf8.mayFollow_iff.mp hfollow).2.2.1 (by decide)
    simp only [UInt8.reduceToNat] at h
    omega

theorem assemble_surrogate (b₁ b₂ : UInt8) :
    Utf8.assemble ((0xED : UInt8).toNat - 0xE0) [b₁, b₂] =
      CodePoint.ofNat (0xD000 + (b₁.toNat - 0x80) * 64 + (b₂.toNat - 0x80)) := by
  simp only [Utf8.assemble, List.foldl_cons, List.foldl_nil, UInt8.reduceToNat]
  refine congrArg CodePoint.ofNat ?_
  omega

theorem next_takes : Utf8.Step.Takes next (fun _ => True) := by
  intro bytes c rest
  rw [true_and]
  constructor
  · intro h
    unfold next at h
    split at h
    next r hstep =>
      cases h
      exact ((Utf8.next_takes _ _ _).mp hstep).2
    next =>
      split at h
      next b₀ b₁ b₂ tail =>
        split at h
        next hbytes =>
          simp only [Bool.and_eq_true, decide_eq_true_eq, Utf8.isContinuation] at hbytes
          obtain ⟨⟨⟨rfl, hlow⟩, hhigh⟩, hthird⟩ := hbytes
          rw [Except.ok.injEq, Prod.mk.injEq, assemble_surrogate] at h
          obtain ⟨hvalue, rfl⟩ := h
          have hform := (spells_surrogate.mpr ⟨⟨hlow, hhigh⟩, hthird, hvalue.symm⟩).1
          rw [hform.encodePoint]
          rfl
        next => cases h
      next => cases h
  · rintro rfl
    cases hc : c.isSurrogate with
    | false => rw [next, (Utf8.next_takes _ _ _).mpr ⟨hc, rfl⟩]
    | true =>
      obtain ⟨b₁, b₂, hform⟩ := encodePoint_surrogate hc
      obtain ⟨hsecond, hthird, hvalue⟩ := spells_surrogate.mp ⟨Utf8.encodePoint_eq_iff.mp hform, hc⟩
      obtain ⟨flaw, hflaw⟩ := utf8_next_surrogate hsecond.1 (b₂ :: rest)
      rw [hform, List.cons_append, List.cons_append, List.cons_append, List.nil_append, next, hflaw]
      simp only [Utf8.isContinuation, hsecond, hthird, decide_true, Bool.and_self, if_true]
      rw [assemble_surrogate, hvalue]

/-- Every code point, a surrogate too, has a token that is its written form. -/
theorem exists_token (c : CodePoint) :
    ∃ token : Token, token.bytes = Utf8.encodePoint c ∧ token.value = c := by
  cases hc : c.isSurrogate with
  | false => exact ⟨.scalar c hc, rfl, rfl⟩
  | true =>
    obtain ⟨b₁, b₂, hform⟩ := encodePoint_surrogate hc
    obtain ⟨hsecond, hthird, hvalue⟩ := spells_surrogate.mp ⟨Utf8.encodePoint_eq_iff.mp hform, hc⟩
    exact ⟨.surrogate b₁ b₂ hsecond hthird, hform.symm, hvalue.symm⟩

theorem spells_bytes (h : Utf8.Spells form n) (hb : b ∈ form) :
    b ≠ 0xC0 ∧ (n ≠ 0 → b ≠ 0) := by
  simp only [ne_eq, ← UInt8.toNat_inj, UInt8.reduceToNat]
  unfold Utf8.Spells at h
  split at h
  next =>
    obtain rfl := List.mem_singleton.mp hb
    omega
  next =>
    simp only [List.mem_cons, List.not_mem_nil, or_false] at hb
    rcases hb with rfl | rfl <;> omega
  next =>
    simp only [List.mem_cons, List.not_mem_nil, or_false] at hb
    rcases hb with rfl | rfl | rfl <;> omega
  next =>
    simp only [List.mem_cons, List.not_mem_nil, or_false] at hb
    rcases hb with rfl | rfl | rfl | rfl <;> omega
  next => exact h.elim

theorem not_mem_encodePoint (c : CodePoint) : (0xC0 : UInt8) ∉ Utf8.encodePoint c := fun h =>
  (spells_bytes (Utf8.spells_encodePoint c) h).1 rfl

theorem zero_not_mem_encodePoint {c : CodePoint} (hc : c.val ≠ 0) :
    (0 : UInt8) ∉ Utf8.encodePoint c := fun h =>
  (spells_bytes (Utf8.spells_encodePoint c) h).2 hc rfl

theorem Token.plainZeros_bytes (token : Token) (bytes : List UInt8) :
    plainZeros (token.bytes ++ bytes) = Utf8.encodePoint token.value ++ plainZeros bytes := by
  cases token with
  | scalar c hc => exact plainZeros_append (not_mem_encodePoint c) bytes
  | zero => exact plainZeros_long bytes
  | surrogate b₁ b₂ second third =>
    have hform := (spells_surrogate.mpr ⟨second, third, rfl⟩).1.encodePoint
    rw [Token.bytes, Token.value, ← hform]
    exact plainZeros_append (not_mem_encodePoint _) bytes

theorem plainZeros_tokens (tokens : List Token) :
    plainZeros (tokens.flatMap Token.bytes) = Utf8.encode (tokens.map Token.value) := by
  induction tokens with
  | nil => rfl
  | cons token tokens ih =>
    rw [List.flatMap_cons, token.plainZeros_bytes, ih, List.map_cons, Utf8.encode_cons]

theorem exists_tokens (h : Utf8.encode t = plainZeros raw) :
    ∃ tokens : List Token, tokens.flatMap Token.bytes = raw ∧ tokens.map Token.value = t := by
  induction t generalizing raw with
  | nil =>
    cases raw with
    | nil => exact ⟨[], rfl, rfl⟩
    | cons b raw =>
      rw [plainZeros_cons] at h
      repeat' split at h
      all_goals cases h
  | cons c t ih =>
    rw [Utf8.encode_cons] at h
    by_cases hc : c.val = 0
    · obtain rfl : c = CodePoint.ofNat 0 := Fin.ext hc
      rcases plainZeros_eq_cons h.symm with ⟨r, rfl, hr⟩ | ⟨-, r, rfl, hr⟩
      · obtain ⟨tokens, rfl, rfl⟩ := ih hr.symm
        exact ⟨.scalar (CodePoint.ofNat 0) rfl :: tokens, rfl, rfl⟩
      · obtain ⟨tokens, rfl, rfl⟩ := ih hr.symm
        exact ⟨.zero :: tokens, rfl, rfl⟩
    · obtain ⟨r, rfl, hr⟩ := plainZeros_eq_append (zero_not_mem_encodePoint hc) h.symm
      obtain ⟨tokens, rfl, rfl⟩ := ih hr.symm
      obtain ⟨token, hbytes, hvalue⟩ := exists_token c
      exact ⟨token :: tokens, by simp [hbytes], by simp [hvalue]⟩

-- ---------------------------------------------------------------------------
-- Surrogates
-- ---------------------------------------------------------------------------

/-- A pair is joined to a supplementary code point, which is no surrogate. -/
theorem le_ofPair {high low : CodePoint} (h : high.isHighSurrogate = true)
    (hl : low.isLowSurrogate = true) : 0x10000 ≤ (CodePoint.ofPair high low).val := by
  simp only [CodePoint.isHighSurrogate, CodePoint.isLowSurrogate, Bool.and_eq_true,
    decide_eq_true_eq] at h hl
  simp only [CodePoint.ofPair, CodePoint.ofNat]
  omega

theorem isLowSurrogate_eq_false {c : CodePoint} (h : 0x10000 ≤ c.val) :
    c.isLowSurrogate = false := by
  simp only [CodePoint.isLowSurrogate, Bool.and_eq_false_iff, decide_eq_false_iff_not]
  omega

theorem isHighSurrogate_eq_false {c : CodePoint} (h : 0x10000 ≤ c.val) :
    c.isHighSurrogate = false := by
  simp only [CodePoint.isHighSurrogate, Bool.and_eq_false_iff, decide_eq_false_iff_not]
  omega

theorem isHighSurrogate_of_low {c : CodePoint} (h : c.isLowSurrogate = true) :
    c.isHighSurrogate = false := by
  simp only [CodePoint.isLowSurrogate, CodePoint.isHighSurrogate, Bool.and_eq_true,
    decide_eq_true_eq, Bool.and_eq_false_iff, decide_eq_false_iff_not] at *
  omega

theorem joinPairs_cons (c : CodePoint) (t : Text) : joinPairs (c :: t) =
    match joinPairs t with
    | d :: tail =>
      if c.isHighSurrogate && d.isLowSurrogate then CodePoint.ofPair c d :: tail else c :: d :: tail
    | [] => [c] := by
  rw [joinPairs, List.foldr_cons, ← joinPairs]
  split <;> simp_all

theorem joinPairs_of_not_high {c : CodePoint} (h : c.isHighSurrogate = false) (t : Text) :
    joinPairs (c :: t) = c :: joinPairs t := by
  rw [joinPairs_cons]
  split <;> simp_all

/-- What stands first is the first code point, or a pair that starts with it. -/
theorem joined_cons (c : CodePoint) (t : Text) : ∃ d tail, joined (c :: t) = d :: tail ∧
    (d = c ∨ 0x10000 ≤ d.val) := by
  cases t with
  | nil => exact ⟨c, [], rfl, .inl rfl⟩
  | cons e t =>
    rw [joined]
    split
    next hpair =>
      rw [Bool.and_eq_true] at hpair
      exact ⟨_, _, rfl, .inr (le_ofPair hpair.1 hpair.2)⟩
    next => exact ⟨_, _, rfl, .inl rfl⟩

/-- Joining goes on behind one code point or behind two. -/
theorem joined_induction {P : Text → Prop} (nil : P []) (single : ∀ c, P [c])
    (pair : ∀ c d rest, P (d :: rest) → P rest → P (c :: d :: rest)) (t : Text) : P t := by
  have h : P t ∧ ∀ c, P (c :: t) := by
    induction t with
    | nil => exact ⟨nil, single⟩
    | cons d rest ih => exact ⟨ih.2 d, fun c => pair c d rest (ih.2 d) ih.1⟩
  exact h.1

/-- Whether pairs are joined from the right or from the left makes no difference. -/
theorem joinPairs_eq_joined (t : Text) : joinPairs t = joined t := by
  induction t using joined_induction with
  | nil => rfl
  | single c => rfl
  | pair c d rest ih ih' =>
    rw [joined]
    by_cases hpair : (c.isHighSurrogate && d.isLowSurrogate) = true
    · rw [if_pos hpair]
      rw [Bool.and_eq_true] at hpair
      rw [joinPairs_cons, joinPairs_of_not_high (isHighSurrogate_of_low hpair.2), ih']
      simp [hpair]
    · rw [if_neg hpair, joinPairs_cons, ih]
      obtain ⟨e, tail, hrest, he⟩ := joined_cons d rest
      rw [hrest]
      -- the code point after `c` is `d` itself, or a joined one and so no low surrogate
      have hnot : ¬(c.isHighSurrogate && e.isLowSurrogate) = true := by
        rcases he with rfl | he
        · exact hpair
        · simp [isLowSurrogate_eq_false he]
      exact if_neg hnot

/-- A high surrogate with a low one right after it. -/
def Pairs (c d : CodePoint) : Prop := c.isHighSurrogate = true ∧ d.isLowSurrogate = true

theorem joined_unpaired (t : Text) : (joined t).IsChain fun c d => ¬Pairs c d := by
  induction t using joined_induction with
  | nil => exact .nil
  | single c => exact .singleton c
  | pair c d rest ih ih' =>
    rw [joined]
    by_cases hpair : (c.isHighSurrogate && d.isLowSurrogate) = true
    · rw [if_pos hpair]
      rw [Bool.and_eq_true] at hpair
      cases hrest : joined rest with
      | nil => exact .singleton _
      | cons e tail =>
        rw [hrest] at ih'
        refine .cons_cons (fun h => ?_) ih'
        rw [Pairs, isHighSurrogate_eq_false (le_ofPair hpair.1 hpair.2)] at h
        cases h.1
    · rw [if_neg hpair]
      obtain ⟨e, tail, hrest, he⟩ := joined_cons d rest
      rw [hrest] at ih ⊢
      refine .cons_cons (fun h => ?_) ih
      rcases he with rfl | he
      · exact hpair (by rw [h.1, h.2]; rfl)
      · rw [Pairs, isLowSurrogate_eq_false he] at h
        cases h.2

theorem joined_of_plain (h : ∀ c ∈ t, c.isSurrogate = false) : joined t = t := by
  induction t using joined_induction with
  | nil => rfl
  | single c => rfl
  | pair c d rest ih ih' =>
    have hc := Utf8.isSurrogate_eq_false.mp (h c List.mem_cons_self)
    have hnot : ¬(c.isHighSurrogate && d.isLowSurrogate) = true := by
      simp only [CodePoint.isHighSurrogate, Bool.and_eq_true, decide_eq_true_eq]
      omega
    rw [joined, if_neg hnot, ih fun e he => h e (List.mem_cons_of_mem c he)]

-- ---------------------------------------------------------------------------
-- Whole texts
-- ---------------------------------------------------------------------------

/-- Where strict UTF-8 accepts, the second attempt gives the same text. -/
theorem second_of_strict (h : Utf8.decode raw = .ok t) :
    Utf8.decodeBy next (plainZeros raw) = .ok t ∧ joinPairs t = t := by
  obtain ⟨hplain, rfl⟩ := Utf8.decode_eq_ok.mp h
  have hraw : plainZeros (Utf8.encode t) = Utf8.encode t := by
    have hlead : (0xC0 : UInt8) ∉ Utf8.encode t := by
      intro hmem
      obtain ⟨c, -, hc⟩ := List.mem_flatMap.mp hmem
      exact not_mem_encodePoint c hc
    have happend := plainZeros_append hlead []
    rw [List.append_nil] at happend
    rw [happend]
    exact List.append_nil _
  rw [hraw, joinPairs_eq_joined, joined_of_plain hplain]
  exact ⟨next_takes.decodeBy.mpr ⟨fun _ _ => trivial, rfl⟩, rfl⟩

theorem decode?_eq_some : decode? raw = some text ↔
    ∃ t, Utf8.decodeBy next (plainZeros raw) = .ok t ∧ joinPairs t = text := by
  rw [decode?]
  cases hstrict : Utf8.decode raw with
  | ok t =>
    obtain ⟨hsecond, hjoin⟩ := second_of_strict hstrict
    simp [hsecond, hjoin]
  | error fault =>
    cases Utf8.decodeBy next (plainZeros raw) with
    | ok t => simp
    | error fault => simp

theorem decode?_eq_some_iff_tokens : decode? raw = some text ↔
    ∃ tokens : List Token, tokens.flatMap Token.bytes = raw ∧
      joined (tokens.map Token.value) = text := by
  rw [decode?_eq_some]
  constructor
  · rintro ⟨t, ht, rfl⟩
    obtain ⟨tokens, hraw, rfl⟩ := exists_tokens (next_takes.decodeBy.mp ht).2
    exact ⟨tokens, hraw, (joinPairs_eq_joined _).symm⟩
  · rintro ⟨tokens, rfl, rfl⟩
    refine ⟨_, next_takes.decodeBy.mpr ⟨fun _ _ => trivial, ?_⟩, joinPairs_eq_joined _⟩
    exact (plainZeros_tokens tokens).symm

/-- A constant whose bytes are no such text is a fault of its pool. -/
theorem decodeText_none (h : decode? raw = none) (hfits : raw.length < 0x10000)
    (hc : c.Faces (bigEndian 2 raw.length ++ raw)) :
    ∃ c', ConstantPool.decodeText c = .error (.pool (.undecodableText raw)) c' := by
  obtain ⟨hlength, hraw⟩ := Cursor.faces_append.mp hc
  rw [length_bigEndian] at hraw
  refine ⟨(c.advance 2).advance raw.length, ?_⟩
  refine Decoder.bind_error.mpr (.inr ⟨_, _, Decoder.reads_u2 hfits c hlength, ?_⟩)
  refine Decoder.bind_error.mpr (.inr ⟨_, _, Decoder.reads_take raw _ hraw, ?_⟩)
  rw [h]
  rfl

/-- Modified UTF-8 is accepted exactly when it is made of tokens, and then it is their values with the
surrogates joined. Anything else is a fault of the constant pool. -/
theorem decode?_grammar (raw : List UInt8) :
    (∀ text, decode? raw = some text ↔ ∃ tokens : List Token,
      tokens.flatMap Token.bytes = raw ∧ joined (tokens.map Token.value) = text) ∧
    ((¬∃ tokens : List Token, tokens.flatMap Token.bytes = raw) →
      decode? raw = none ∧
      ∀ c : Cursor, raw.length < 0x10000 → c.Faces (bigEndian 2 raw.length ++ raw) →
        ∃ fault c', ConstantPool.decodeText c = .error fault c' ∧
          fault.kind = .malformedConstantPool) ∧
    (∀ text, Utf8.decode raw = .ok text →
      ∃ t, Utf8.decodeBy next (plainZeros raw) = .ok t ∧ joinPairs t = text) ∧
    (∀ text, decode? raw = some text → text.IsChain fun c d => ¬Pairs c d) := by
  refine ⟨fun text => decode?_eq_some_iff_tokens, ?_, ?_, ?_⟩
  · intro hnone
    have hdecode : decode? raw = none := by
      refine Option.eq_none_iff_forall_ne_some.mpr fun text htext => hnone ?_
      obtain ⟨tokens, htokens, -⟩ := decode?_eq_some_iff_tokens.mp htext
      exact ⟨tokens, htokens⟩
    refine ⟨hdecode, fun c hfits hc => ?_⟩
    obtain ⟨c', hfault⟩ := decodeText_none hdecode hfits hc
    exact ⟨_, c', hfault, rfl⟩
  · intro text hstrict
    exact ⟨text, second_of_strict hstrict⟩
  · intro text htext
    obtain ⟨tokens, -, rfl⟩ := decode?_eq_some_iff_tokens.mp htext
    exact joined_unpaired _

/-- Of two high surrogates before a low one, the second is joined; a long zero follows. -/
theorem decode?_grammar_highHighLow :
    decode? [0xED, 0xA0, 0x80, 0xED, 0xA0, 0x80, 0xED, 0xB0, 0x80, 0xC0, 0x80] =
      some [CodePoint.ofNat 0xD800, CodePoint.ofNat 0x10000, CodePoint.ofNat 0] :=
  ((decode?_grammar _).1 _).mpr
    ⟨[.surrogate 0xA0 0x80 (by decide) (by decide), .surrogate 0xA0 0x80 (by decide) (by decide),
      .surrogate 0xB0 0x80 (by decide) (by decide), .zero], by decide, by decide⟩

/-- A pair of bytes that is no token of its own does not become one by standing behind others. -/
example : decode? [0xE0, 0xC0, 0x80] = none ∧ decode? [0xC0, 0xC0, 0x80] = none ∧
    decode? [0xC0, 0x80, 0x80] = none := by decide

end Callsite.ModifiedUtf8
