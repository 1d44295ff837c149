import Callsite.Text.Utf8

/-!
# Decoding is the inverse of encoding

A step that takes exactly the written form of a code point off the front, for the code points that it
allows, decodes exactly the written texts of such code points. Strict UTF-8 allows all but the
surrogates.
-/

namespace Callsite.Utf8

/-- The step takes the written form of an allowed code point off the front, and nothing else. -/
def Step.Takes (step : Step) (allowed : CodePoint → Prop) : Prop :=
  ∀ bytes c rest, step bytes = .ok (c, rest) ↔ allowed c ∧ bytes = encodePoint c ++ rest

-- ---------------------------------------------------------------------------
-- Code points
-- ---------------------------------------------------------------------------

/-- The bytes are the shortest form of a number: how far it reaches decides how many they are. -/
def Spells : List UInt8 → Nat → Prop
  | [b₀], n => n < 0x80 ∧ b₀.toNat = n
  | [b₀, b₁], n => (0x80 ≤ n ∧ n < 0x800) ∧ b₀.toNat = 0xC0 + n / 64 ∧ b₁.toNat = 0x80 + n % 64
  | [b₀, b₁, b₂], n => (0x800 ≤ n ∧ n < 0x10000) ∧ b₀.toNat = 0xE0 + n / 4096 ∧
    b₁.toNat = 0x80 + n / 64 % 64 ∧ b₂.toNat = 0x80 + n % 64
  | [b₀, b₁, b₂, b₃], n => (0x10000 ≤ n ∧ n < 0x110000) ∧ b₀.toNat = 0xF0 + n / 262144 ∧
    b₁.toNat = 0x80 + n / 4096 % 64 ∧ b₂.toNat = 0x80 + n / 64 % 64 ∧ b₃.toNat = 0x80 + n % 64
  | _, _ => False

theorem toNat_continuation (n : Nat) : (continuation n).toNat = 0x80 + n % 64 := by
  rw [continuation, UInt8.toNat_ofNat']
  omega

theorem toNat_lead (k : Nat) (h : k < 256) : (UInt8.ofNat k).toNat = k := by
  rw [UInt8.toNat_ofNat']
  omega

theorem spells_encodePoint (c : CodePoint) : Spells (encodePoint c) c.val := by
  have hc := c.isLt
  simp only [encodePoint]
  split
  · exact ⟨by omega, toNat_lead _ (by omega)⟩
  · split
    · exact ⟨by omega, toNat_lead _ (by omega), toNat_continuation _⟩
    · split
      · exact ⟨by omega, toNat_lead _ (by omega), toNat_continuation _, toNat_continuation _⟩
      · exact ⟨by omega, toNat_lead _ (by omega), toNat_continuation _, toNat_continuation _,
          toNat_continuation _⟩

theorem Spells.encodePoint {c : CodePoint} (h : Spells bytes c.val) : encodePoint c = bytes := by
  unfold Spells at h
  split at h
  next =>
    obtain ⟨hlt, h₀⟩ := h
    simp only [Utf8.encodePoint]
    rw [if_pos hlt, ← h₀, UInt8.ofNat_toNat]
  next =>
    obtain ⟨hrange, h₀, h₁⟩ := h
    simp only [Utf8.encodePoint, continuation, ← h₀, ← h₁, UInt8.ofNat_toNat]
    rw [if_neg (by omega), if_pos hrange.2]
  next =>
    obtain ⟨hrange, h₀, h₁, h₂⟩ := h
    simp only [Utf8.encodePoint, continuation, ← h₀, ← h₁, ← h₂, UInt8.ofNat_toNat]
    rw [if_neg (by omega), if_neg (by omega), if_pos hrange.2]
  next =>
    obtain ⟨hrange, h₀, h₁, h₂, h₃⟩ := h
    simp only [Utf8.encodePoint, continuation, ← h₀, ← h₁, ← h₂, ← h₃, UInt8.ofNat_toNat]
    rw [if_neg (by omega), if_neg (by omega), if_neg (by omega)]
  next => exact h.elim

/-- The written form is the only one that spells the code point. -/
theorem encodePoint_eq_iff : encodePoint c = bytes ↔ Spells bytes c.val := by
  constructor
  · rintro rfl
    exact spells_encodePoint c
  · exact Spells.encodePoint

-- ---------------------------------------------------------------------------
-- Strict steps
-- ---------------------------------------------------------------------------

theorem isContinuation_iff : isContinuation b = true ↔ 0x80 ≤ b.toNat ∧ b.toNat ≤ 0xBF := by
  simp [isContinuation, UInt8.le_iff_toNat_le]

/-- Four lead bytes narrow the range of the byte after them. -/
theorem mayFollow_iff : mayFollow b₀ b₁ = true ↔ (0x80 ≤ b₁.toNat ∧ b₁.toNat ≤ 0xBF) ∧
    (b₀.toNat = 0xE0 → 0xA0 ≤ b₁.toNat) ∧ (b₀.toNat = 0xED → b₁.toNat ≤ 0x9F) ∧
    (b₀.toNat = 0xF0 → 0x90 ≤ b₁.toNat) ∧ (b₀.toNat = 0xF4 → b₁.toNat ≤ 0x8F) := by
  simp only [mayFollow, ← UInt8.toNat_inj, UInt8.le_iff_toNat_le, isContinuation,
    UInt8.reduceToNat]
  repeat' split
  all_goals
    simp only [Bool.and_eq_true, decide_eq_true_eq]
    omega

theorem isSurrogate_eq_false {c : CodePoint} :
    c.isSurrogate = false ↔ c.val < 0xD800 ∨ 0xDFFF < c.val := by
  simp only [CodePoint.isSurrogate, Bool.and_eq_false_iff, decide_eq_false_iff_not]
  omega

theorem assemble_eq_iff : assemble lead continuations = c ↔
    continuations.foldl (fun n b => n * 64 + (b.toNat - 0x80)) lead % 0x110000 = c.val := by
  rw [assemble, CodePoint.ofNat, Fin.ext_iff]

theorem two_ok : two b₀ bytes = .ok (c, rest) ↔ ∃ b₁, bytes = b₁ :: rest ∧
    mayFollow b₀ b₁ = true ∧ assemble (b₀.toNat - 0xC0) [b₁] = c := by
  constructor
  · intro h
    unfold two at h
    repeat' split at h
    all_goals simp only [Except.ok.injEq, Prod.mk.injEq, reduceCtorEq] at h
    next h₁ => exact ⟨_, by rw [h.2], h₁, h.1⟩
  · rintro ⟨b₁, rfl, h₁, rfl⟩
    simp [two, h₁]

theorem three_ok : three b₀ bytes = .ok (c, rest) ↔ ∃ b₁ b₂, bytes = b₁ :: b₂ :: rest ∧
    mayFollow b₀ b₁ = true ∧ isContinuation b₂ = true ∧
    assemble (b₀.toNat - 0xE0) [b₁, b₂] = c := by
  constructor
  · intro h
    unfold three at h
    repeat' split at h
    all_goals simp only [Except.ok.injEq, Prod.mk.injEq, reduceCtorEq] at h
    next h₁ _ _ _ h₂ => exact ⟨_, _, by rw [h.2], by simpa using h₁, h₂, h.1⟩
  · rintro ⟨b₁, b₂, rfl, h₁, h₂, rfl⟩
    simp [three, h₁, h₂]

theorem four_ok : four b₀ bytes = .ok (c, rest) ↔ ∃ b₁ b₂ b₃, bytes = b₁ :: b₂ :: b₃ :: rest ∧
    mayFollow b₀ b₁ = true ∧ isContinuation b₂ = true ∧ isContinuation b₃ = true ∧
    assemble (b₀.toNat - 0xF0) [b₁, b₂, b₃] = c := by
  constructor
  · intro h
    unfold four at h
    repeat' split at h
    all_goals simp only [Except.ok.injEq, Prod.mk.injEq, reduceCtorEq] at h
    next h₁ _ _ h₂ _ _ _ h₃ =>
      exact ⟨_, _, _, by rw [h.2], by simpa using h₁, by simpa using h₂, h₃, h.1⟩
  · rintro ⟨b₁, b₂, b₃, rfl, h₁, h₂, h₃, rfl⟩
    simp [four, h₁, h₂, h₃]

theorem two_spells (h : 0xC2 ≤ b₀.toNat ∧ b₀.toNat < 0xE0) :
    mayFollow b₀ b₁ = true ∧ assemble (b₀.toNat - 0xC0) [b₁] = c ↔
      c.isSurrogate = false ∧ Spells [b₀, b₁] c.val := by
  rw [mayFollow_iff, assemble_eq_iff, isSurrogate_eq_false]
  simp only [List.foldl_cons, List.foldl_nil, Spells]
  omega

theorem three_spells (h : 0xE0 ≤ b₀.toNat ∧ b₀.toNat < 0xF0) :
    mayFollow b₀ b₁ = true ∧ isContinuation b₂ = true ∧
      assemble (b₀.toNat - 0xE0) [b₁, b₂] = c ↔
      c.isSurrogate = false ∧ Spells [b₀, b₁, b₂] c.val := by
  rw [mayFollow_iff, isContinuation_iff, assemble_eq_iff, isSurrogate_eq_false]
  simp only [List.foldl_cons, List.foldl_nil, Spells]
  omega

theorem four_spells (h : 0xF0 ≤ b₀.toNat ∧ b₀.toNat < 0xF5) :
    mayFollow b₀ b₁ = true ∧ isContinuation b₂ = true ∧ isContinuation b₃ = true ∧
      assemble (b₀.toNat - 0xF0) [b₁, b₂, b₃] = c ↔
      c.isSurrogate = false ∧ Spells [b₀, b₁, b₂, b₃] c.val := by
  rw [mayFollow_iff, isContinuation_iff, isContinuation_iff, assemble_eq_iff, isSurrogate_eq_false]
  simp only [List.foldl_cons, List.foldl_nil, Spells]
  constructor
  · rintro ⟨h₁, h₂, h₃, hvalue⟩
    -- the narrowed ranges keep the number below the last code point
    rw [Nat.mod_eq_of_lt (by omega)] at hvalue
    omega
  · rintro ⟨-, hrange, h₀, h₁, h₂, h₃⟩
    refine ⟨by omega, by omega, by omega, ?_⟩
    rw [Nat.mod_eq_of_lt (by omega)]
    omega

theorem next_one (h : b₀.toNat < 0x80) :
    next (b₀ :: bytes) = .ok (CodePoint.ofNat b₀.toNat, bytes) := by
  simp only [next, UInt8.lt_iff_toNat_lt, UInt8.reduceToNat]
  rw [if_pos h]

theorem next_two (h : 0xC2 ≤ b₀.toNat ∧ b₀.toNat < 0xE0) : next (b₀ :: bytes) = two b₀ bytes := by
  simp only [next, UInt8.lt_iff_toNat_lt, UInt8.reduceToNat]
  rw [if_neg (by omega), if_neg (by omega), if_pos h.2]

theorem next_three (h : 0xE0 ≤ b₀.toNat ∧ b₀.toNat < 0xF0) :
    next (b₀ :: bytes) = three b₀ bytes := by
  simp only [next, UInt8.lt_iff_toNat_lt, UInt8.reduceToNat]
  rw [if_neg (by omega), if_neg (by omega), if_neg (by omega), if_pos h.2]

theorem next_four (h : 0xF0 ≤ b₀.toNat ∧ b₀.toNat < 0xF5) :
    next (b₀ :: bytes) = four b₀ bytes := by
  simp only [next, UInt8.lt_iff_toNat_lt, UInt8.reduceToNat]
  rw [if_neg (by omega), if_neg (by omega), if_neg (by omega), if_neg (by omega), if_pos h.2]

/-- No other byte starts a code point. -/
theorem lead_of_next (h : next (b₀ :: bytes) = .ok r) : b₀.toNat < 0x80 ∨
    (0xC2 ≤ b₀.toNat ∧ b₀.toNat < 0xE0) ∨ (0xE0 ≤ b₀.toNat ∧ b₀.toNat < 0xF0) ∨
    (0xF0 ≤ b₀.toNat ∧ b₀.toNat < 0xF5) := by
  refine Decidable.byContradiction fun hlead => ?_
  simp only [next, UInt8.lt_iff_toNat_lt, UInt8.reduceToNat] at h
  rw [if_neg (by omega)] at h
  by_cases hlow : b₀.toNat < 0xC2
  · rw [if_pos hlow] at h
    cases h
  · rw [if_neg hlow, if_neg (by omega), if_neg (by omega), if_neg (by omega)] at h
    cases h

/-- The number of bytes decides which lead byte stands first. -/
theorem Spells.next {c : CodePoint} (h : Spells form c.val) (hc : c.isSurrogate = false)
    (rest : List UInt8) : next (form ++ rest) = .ok (c, rest) := by
  unfold Spells at h
  split at h
  next =>
    obtain ⟨hlt, h₀⟩ := h
    refine (next_one (by omega)).trans ?_
    rw [Except.ok.injEq, Prod.mk.injEq]
    refine ⟨Fin.ext ?_, rfl⟩
    rw [h₀]
    exact Nat.mod_eq_of_lt c.isLt
  next _ _ b₀ b₁ =>
    have h₀ : 0xC2 ≤ b₀.toNat ∧ b₀.toNat < 0xE0 := by omega
    exact (next_two h₀).trans (two_ok.mpr ⟨b₁, rfl, (two_spells h₀).mpr ⟨hc, h⟩⟩)
  next _ _ b₀ b₁ b₂ =>
    have h₀ : 0xE0 ≤ b₀.toNat ∧ b₀.toNat < 0xF0 := by omega
    exact (next_three h₀).trans (three_ok.mpr ⟨b₁, b₂, rfl, (three_spells h₀).mpr ⟨hc, h⟩⟩)
  next _ _ b₀ b₁ b₂ b₃ =>
    have h₀ : 0xF0 ≤ b₀.toNat ∧ b₀.toNat < 0xF5 := by omega
    exact (next_four h₀).trans (four_ok.mpr ⟨b₁, b₂, b₃, rfl, (four_spells h₀).mpr ⟨hc, h⟩⟩)
  next => exact h.elim

theorem next_takes : Step.Takes next (fun c => c.isSurrogate = false) := by
  intro bytes c rest
  constructor
  · intro h
    cases bytes with
    | nil => cases h
    | cons b₀ bytes =>
      rcases lead_of_next h with h₀ | h₀ | h₀ | h₀
      · rw [next_one h₀, Except.ok.injEq, Prod.mk.injEq] at h
        obtain ⟨hvalue, rfl⟩ := h
        have hval : c.val = b₀.toNat := by
          rw [← hvalue]
          exact Nat.mod_eq_of_lt (by omega)
        have hform : Spells [b₀] c.val := ⟨by omega, hval.symm⟩
        exact ⟨isSurrogate_eq_false.mpr (by omega), by rw [hform.encodePoint]; rfl⟩
      · rw [next_two h₀] at h
        obtain ⟨b₁, rfl, hform⟩ := two_ok.mp h
        obtain ⟨hc, hform⟩ := (two_spells h₀).mp hform
        exact ⟨hc, by rw [hform.encodePoint]; rfl⟩
      · rw [next_three h₀] at h
        obtain ⟨b₁, b₂, rfl, hform⟩ := three_ok.mp h
        obtain ⟨hc, hform⟩ := (three_spells h₀).mp hform
        exact ⟨hc, by rw [hform.encodePoint]; rfl⟩
      · rw [next_four h₀] at h
        obtain ⟨b₁, b₂, b₃, rfl, hform⟩ := four_ok.mp h
        obtain ⟨hc, hform⟩ := (four_spells h₀).mp hform
        exact ⟨hc, by rw [hform.encodePoint]; rfl⟩
  · rintro ⟨hc, rfl⟩
    exact (spells_encodePoint c).next hc rest

-- ---------------------------------------------------------------------------
-- Whole texts
-- ---------------------------------------------------------------------------

theorem encodePoint_ne_nil (c : CodePoint) : encodePoint c ≠ [] := by
  intro h
  have hform := spells_encodePoint c
  rw [h] at hform
  exact hform

theorem encode_cons (c : CodePoint) (t : Text) : encode (c :: t) = encodePoint c ++ encode t := rfl

theorem encode_eq_nil : encode t = [] ↔ t = [] := by
  cases t with
  | nil => simp [encode]
  | cons c t => simp [encode_cons, encodePoint_ne_nil]

/-- Every code point takes a byte at least, so the fuel suffices for the rest. -/
theorem length_rest_le (h : bytes = encodePoint c ++ rest) (hfuel : bytes.length ≤ fuel + 1) :
    rest.length ≤ fuel := by
  have hpos := List.length_pos_iff.mpr (encodePoint_ne_nil c)
  rw [h, List.length_append] at hfuel
  omega

section

variable {step : Step} {allowed : CodePoint → Prop}

theorem decodeFrom_nil : decodeFrom step fuel position [] taken = .ok t ↔
    ∃ more : Text, (∀ c ∈ more, allowed c) ∧ encode more = [] ∧ taken.reverse ++ more = t := by
  rw [Utf8.decodeFrom.eq_def]
  constructor
  · intro h
    cases h
    exact ⟨[], by simp, rfl, List.append_nil _⟩
  · rintro ⟨more, -, hmore, rfl⟩
    cases encode_eq_nil.mp hmore
    exact congrArg Except.ok (List.append_nil _).symm

theorem Step.Takes.decodeFrom (hs : step.Takes allowed) {fuel : Nat} (position : Nat)
    {bytes : List UInt8} (taken t : Text) (hfuel : bytes.length ≤ fuel) :
    decodeFrom step fuel position bytes taken = .ok t ↔
      ∃ more : Text, (∀ c ∈ more, allowed c) ∧ encode more = bytes ∧ taken.reverse ++ more = t := by
  induction fuel generalizing position bytes taken with
  | zero =>
    cases List.length_eq_zero_iff.mp (Nat.le_zero.mp hfuel)
    exact decodeFrom_nil
  | succ fuel ih =>
    cases bytes with
    | nil => exact decodeFrom_nil
    | cons b bytes =>
      rw [Utf8.decodeFrom]
      constructor
      · intro h
        split at h
        next c rest hstep =>
          obtain ⟨hc, hbytes⟩ := (hs _ _ _).mp hstep
          obtain ⟨more, hmore, rfl, rfl⟩ := (ih _ _ (length_rest_le hbytes hfuel)).mp h
          exact ⟨c :: more, by simpa using ⟨hc, hmore⟩, by rw [encode_cons, hbytes], by simp⟩
        next => cases h
      · rintro ⟨more, hmore, hbytes, rfl⟩
        cases more with
        | nil => cases hbytes
        | cons c more =>
          have hstep : step (b :: bytes) = .ok (c, encode more) :=
            (hs _ _ _).mpr ⟨hmore c List.mem_cons_self, hbytes.symm⟩
          rw [hstep]
          refine (ih _ _ (length_rest_le hbytes.symm hfuel)).mpr ⟨more, fun d hd => hmore d (List.mem_cons_of_mem c hd), rfl, ?_⟩
          simp

/-- Such a step decodes exactly what is written of allowed code points. -/
theorem Step.Takes.decodeBy (hs : step.Takes allowed) :
    decodeBy step bytes = .ok t ↔ (∀ c ∈ t, allowed c) ∧ encode t = bytes := by
  rw [Utf8.decodeBy, hs.decodeFrom 0 [] t (Nat.le_refl _)]
  simp

end

theorem decode_eq_ok : decode bytes = .ok t ↔
    (∀ c ∈ t, c.isSurrogate = false) ∧ encode t = bytes := next_takes.decodeBy

end Callsite.Utf8
