import Callsite.Proofs.BigEndian

/-!
# What decoders take

`Parses d G`: the decoder `d` succeeds exactly where bytes of the grammar `G` come next, gives what
the grammar gives for them, and moves past them. Grammars know the offset, since switches are aligned
to it. A read has a grammar, and a sequence of decoders has the sequence of their grammars.

`Reads` is the half that a round trip needs: wherever the given bytes come next, and whatever
follows them, the decoder takes all of them and no more.
-/

namespace Callsite

namespace Cursor

def advance (c : Cursor) (n : Nat) : Cursor := { c with offset := c.offset + n }

/-- The cursor stands in the data or at their end. -/
def Inside (c : Cursor) : Prop := c.offset ≤ c.data.size

/-- The given bytes come next. -/
def Faces (c : Cursor) (bytes : List UInt8) : Prop :=
  ∃ front tail, front.length = c.offset ∧ c.data.toList = front ++ (bytes ++ tail)

@[simp] theorem advance_zero (c : Cursor) : c.advance 0 = c := rfl

@[simp] theorem advance_advance (c : Cursor) (m n : Nat) :
    (c.advance m).advance n = c.advance (m + n) := by
  simp [advance, Nat.add_assoc]

@[simp] theorem offset_advance (c : Cursor) (n : Nat) : (c.advance n).offset = c.offset + n := rfl
@[simp] theorem data_advance (c : Cursor) (n : Nat) : (c.advance n).data = c.data := rfl

theorem Faces.fits {c : Cursor} (h : c.Faces bytes) : c.offset + bytes.length ≤ c.data.size := by
  obtain ⟨front, tail, hf, hd⟩ := h
  rw [← Array.length_toList, hd, ← hf]
  simp only [List.length_append]
  omega

theorem Faces.le_left {c : Cursor} (h : c.Faces bytes) : (bytes.length : Int) ≤ c.left := by
  have hfits := h.fits
  rw [left]
  omega

theorem Faces.inside {c : Cursor} (h : c.Faces bytes) : c.Inside :=
  Nat.le_trans (Nat.le_add_right ..) h.fits

theorem Faces.inside_advance {c : Cursor} (h : c.Faces bytes) : (c.advance bytes.length).Inside :=
  h.fits

theorem Inside.faces_nil {c : Cursor} (h : c.Inside) : c.Faces [] :=
  ⟨c.data.toList.take c.offset, c.data.toList.drop c.offset,
    by simpa using Nat.min_eq_left h, by simp⟩

theorem Faces.ahead {c : Cursor} (h : c.Faces bytes) : c.ahead bytes.length = bytes := by
  obtain ⟨front, tail, hf, hd⟩ := h
  simp [Cursor.ahead, hd, ← hf]

theorem faces_ahead {c : Cursor} (h : c.offset + n ≤ c.data.size) :
    c.Faces (c.ahead n) ∧ (c.ahead n).length = n := by
  refine ⟨⟨c.data.toList.take c.offset, (c.data.toList.drop c.offset).drop n, ?_, ?_⟩, ?_⟩
  · simp
    omega
  · simp only [Cursor.ahead, Array.toList_extract, List.extract_eq_take_drop, Nat.add_sub_cancel_left,
      List.take_append_drop]
  · simp [Cursor.ahead]
    omega

/-- Bytes in a row come next one part after the other. -/
theorem faces_append {c : Cursor} :
    c.Faces (bytes ++ more) ↔ c.Faces bytes ∧ (c.advance bytes.length).Faces more := by
  constructor
  · rintro ⟨front, tail, hf, hd⟩
    exact ⟨⟨front, more ++ tail, hf, by simp [hd]⟩,
      ⟨front ++ bytes, tail, by simp [hf], by simp [hd]⟩⟩
  · rintro ⟨⟨front, tail, hf, hd⟩, ⟨front', tail', hf', hd'⟩⟩
    simp only [offset_advance, data_advance] at hf' hd'
    -- both describe the same data, cut at the same place
    have hsplit : (front ++ bytes) ++ tail = front' ++ (more ++ tail') := by
      rw [List.append_assoc, ← hd, hd']
    obtain ⟨-, hm⟩ := List.append_inj hsplit (by simp [hf, hf'])
    exact ⟨front, tail', hf, by simp [hd, hm]⟩

@[simp] theorem offset_ofBytes (bytes : List UInt8) (blame : FaultKind) :
    (Cursor.ofBytes bytes blame).offset = 0 := rfl

@[simp] theorem size_ofBytes (bytes : List UInt8) (blame : FaultKind) :
    (Cursor.ofBytes bytes blame).data.size = bytes.length := by
  simp [Cursor.ofBytes]

theorem inside_ofBytes (bytes : List UInt8) (blame : FaultKind) :
    (Cursor.ofBytes bytes blame).Inside :=
  Nat.zero_le _

/-- At the start of the data, what comes next is what the data start with. -/
theorem faces_ofBytes : (Cursor.ofBytes whole kind).Faces bytes ↔ bytes <+: whole := by
  constructor
  · rintro ⟨front, tail, hf, hd⟩
    obtain rfl := List.eq_nil_of_length_eq_zero hf
    exact ⟨tail, by simpa [Cursor.ofBytes] using hd.symm⟩
  · rintro ⟨tail, rfl⟩
    exact ⟨[], tail, rfl, by simp [Cursor.ofBytes]⟩

end Cursor

namespace Decoder

theorem bind_ok {d : Decoder α} {f : α → Decoder β} :
    (d >>= f) c = .ok b c'' ↔ ∃ a c', d c = .ok a c' ∧ f a c' = .ok b c'' := by
  show EStateM.bind d f c = _ ↔ _
  unfold EStateM.bind
  cases d c <;> simp

theorem bind_of_ok {d : Decoder α} {f : α → Decoder β} (h : d c = .ok a c') :
    (d >>= f) c = f a c' := by
  show EStateM.bind d f c = _
  rw [EStateM.bind, h]

theorem bind_of_error {d : Decoder α} {f : α → Decoder β} (h : d c = .error e c') :
    (d >>= f) c = .error e c' := by
  show EStateM.bind d f c = _
  rw [EStateM.bind, h]

theorem map_ok {d : Decoder α} {f : α → β} :
    (f <$> d) c = .ok b c' ↔ ∃ a, d c = .ok a c' ∧ f a = b := by
  show EStateM.map f d c = _ ↔ _
  unfold EStateM.map
  cases d c with
  | ok a c₁ => simp [and_comm]
  | error e c₁ => simp

theorem pure_ok : (pure a : Decoder α) c = .ok b c' ↔ a = b ∧ c = c' := by
  show EStateM.Result.ok a c = _ ↔ _
  simp

theorem charging_ok {d : Decoder α} : charging kind d c = .ok a c' ↔
    ∃ c₁, d { c with blame := kind } = .ok a c₁ ∧ { c₁ with blame := c.blame } = c' := by
  unfold charging
  cases d { c with blame := kind } <;> simp

/-- From one cursor a decoder gives one thing and ends in one place. -/
theorem run_unique {d : Decoder α} {c : Cursor} (h : d c = .ok a (c.advance m))
    (h' : d c = .ok b (c.advance n)) : a = b ∧ m = n := by
  injection h.symm.trans h' with hvalue hcursor
  exact ⟨hvalue, Nat.add_left_cancel (congrArg Cursor.offset hcursor)⟩

theorem skip_ok : skip n c = .ok u c' ↔
    ∃ bytes, (bytes.length : Int) = n ∧ c.Faces bytes ∧ c.advance bytes.length = c' := by
  unfold skip
  constructor
  · intro h
    split at h
    · cases h
    · rename_i hn
      split at h
      · rename_i hfits
        obtain ⟨hfaces, hlen⟩ := Cursor.faces_ahead hfits
        cases h
        refine ⟨c.ahead n.toNat, by omega, hfaces, ?_⟩
        rw [hlen]
        rfl
      · cases h
  · rintro ⟨bytes, rfl, hfaces, rfl⟩
    have hfits := hfaces.fits
    simp [hfits, Cursor.advance]

theorem take_ok : take n c = .ok bytes c' ↔
    (bytes.length : Int) = n ∧ c.Faces bytes ∧ c.advance bytes.length = c' := by
  have hget : ∀ a c₁, (get : Decoder Cursor) c = .ok a c₁ ↔ c = a ∧ c = c₁ := fun a c₁ => by
    show EStateM.Result.ok c c = _ ↔ _
    simp
  simp only [take, bind_ok, hget, skip_ok, pure_ok]
  constructor
  · rintro ⟨_, _, ⟨rfl, rfl⟩, _, _, ⟨taken, rfl, hfaces, rfl⟩, rfl, rfl⟩
    rw [Int.toNat_natCast, hfaces.ahead]
    exact ⟨rfl, hfaces, rfl⟩
  · rintro ⟨rfl, hfaces, rfl⟩
    exact ⟨c, c, ⟨rfl, rfl⟩, (), _, ⟨bytes, rfl, hfaces, rfl⟩, hfaces.ahead, rfl⟩

-- ---------------------------------------------------------------------------
-- Grammars
-- ---------------------------------------------------------------------------

/-- The bytes that may stand at an offset, and what they denote. -/
abbrev Grammar (α : Type) := Nat → List UInt8 → α → Prop

def Parses (d : Decoder α) (G : Grammar α) : Prop :=
  ∀ c : Cursor, c.Inside → ∀ a c', d c = .ok a c' ↔
    ∃ bytes, G c.offset bytes a ∧ c.Faces bytes ∧ c.advance bytes.length = c'

/-- Two grammars in a row, the second after what the first denotes. -/
def Grammar.seq (G : Grammar α) (H : α → Grammar β) : Grammar β := fun n bytes b =>
  ∃ a front back, front ++ back = bytes ∧ G n front a ∧ H a (n + front.length) back b

/-- A decoder takes what its grammar allows. -/
theorem Parses.run {d : Decoder α} (hd : Parses d G) (hg : G c.offset bytes a)
    (hfaces : c.Faces bytes) : d c = .ok a (c.advance bytes.length) :=
  (hd c hfaces.inside a _).mpr ⟨bytes, hg, hfaces, rfl⟩

theorem Parses.congr (hd : Parses d G) (h : ∀ n bytes a, G n bytes a ↔ H n bytes a) :
    Parses d H := by
  intro c hc a c'
  simp only [hd c hc a c', h]

theorem Parses.bind {d : Decoder α} {f : α → Decoder β} (hd : Parses d G)
    (hf : ∀ a, Parses (f a) (H a)) : Parses (d >>= f) (Grammar.seq G H) := by
  intro c hc b c''
  rw [bind_ok]
  constructor
  · rintro ⟨a, c', h, h'⟩
    obtain ⟨front, hg, hfront, rfl⟩ := (hd c hc a c').mp h
    obtain ⟨back, hh, hback, rfl⟩ := (hf a _ hfront.inside_advance b c'').mp h'
    exact ⟨front ++ back, ⟨a, front, back, rfl, hg, hh⟩,
      Cursor.faces_append.mpr ⟨hfront, hback⟩, by simp⟩
  · rintro ⟨_, ⟨a, front, back, rfl, hg, hh⟩, hfaces, rfl⟩
    obtain ⟨hfront, hback⟩ := Cursor.faces_append.mp hfaces
    exact ⟨a, c.advance front.length, (hd c hc a _).mpr ⟨front, hg, hfront, rfl⟩,
      (hf a _ hfront.inside_advance b _).mpr ⟨back, hh, hback, by simp⟩⟩

theorem Parses.map {d : Decoder α} {f : α → β} (hd : Parses d G) :
    Parses (f <$> d) fun n bytes b => ∃ a, G n bytes a ∧ f a = b := by
  intro c hc b c'
  simp only [map_ok, hd c hc]
  constructor
  · rintro ⟨a, ⟨bytes, hg, hfaces⟩, rfl⟩
    exact ⟨bytes, ⟨a, hg, rfl⟩, hfaces⟩
  · rintro ⟨bytes, ⟨a, hg, rfl⟩, hfaces⟩
    exact ⟨a, ⟨bytes, hg, hfaces⟩, rfl⟩

theorem parses_pure (a : α) : Parses (pure a) fun _ bytes b => bytes = [] ∧ a = b := by
  intro c hc b c'
  rw [pure_ok]
  constructor
  · rintro ⟨rfl, rfl⟩
    exact ⟨[], ⟨rfl, rfl⟩, hc.faces_nil, rfl⟩
  · rintro ⟨_, ⟨rfl, rfl⟩, -, rfl⟩
    exact ⟨rfl, rfl⟩

theorem parses_throw (e : Fault) : Parses (throw e : Decoder α) fun _ _ _ => False := by
  intro c _ a c'
  constructor
  · intro h
    cases h
  · rintro ⟨_, h, -⟩
    exact h.elim

/-- A check that comes before the rest. -/
theorem Parses.guard {p : Prop} [Decidable p] {d : Decoder α} (hd : Parses d G) (e : Fault) :
    Parses (if p then throw e else d) fun n bytes a => ¬p ∧ G n bytes a := by
  split
  · rename_i hp
    exact (parses_throw e).congr (by simp [hp])
  · rename_i hp
    exact hd.congr (by simp [hp])

theorem parses_offset : Parses offset fun n bytes m => bytes = [] ∧ n = m := by
  intro c hc m c'
  have h : offset c = .ok c.offset c := rfl
  rw [h]
  exact parses_pure c.offset c hc m c'

theorem parses_skip (n : Int) : Parses (skip n) fun _ bytes _ => (bytes.length : Int) = n :=
  fun _ _ _ _ => skip_ok

theorem parses_take (n : Int) :
    Parses (take n) fun _ bytes taken => (bytes.length : Int) = n ∧ bytes = taken := by
  intro c _ taken c'
  rw [take_ok]
  constructor
  · rintro ⟨hn, hfaces⟩
    exact ⟨taken, ⟨hn, rfl⟩, hfaces⟩
  · rintro ⟨_, ⟨hn, rfl⟩, hfaces⟩
    exact ⟨hn, hfaces⟩

theorem parses_u1 : Parses u1 fun _ bytes n => ∃ b : UInt8, bytes = [b] ∧ b.toNat = n := by
  refine (parses_take 1).map.congr fun _ bytes n => ⟨?_, ?_⟩
  · rintro ⟨_, ⟨hl, rfl⟩, rfl⟩
    have hl : bytes.length = 1 := by omega
    obtain ⟨b, rfl⟩ := List.length_eq_one_iff.mp hl
    exact ⟨b, rfl, (natOfBytes_singleton b).symm⟩
  · rintro ⟨b, rfl, rfl⟩
    exact ⟨[b], ⟨rfl, rfl⟩, natOfBytes_singleton b⟩

theorem parses_u2 : Parses u2 fun _ bytes n => ∃ w : UInt16, bytes = field2 w ∧ w.toNat = n := by
  refine (parses_take 2).map.congr fun _ bytes n => ⟨?_, ?_⟩
  · rintro ⟨_, ⟨hl, rfl⟩, rfl⟩
    have hl : bytes.length = 2 := by omega
    obtain ⟨w, rfl⟩ := exists_field2 hl
    exact ⟨w, rfl, (natOfBytes_field2 w).symm⟩
  · rintro ⟨w, rfl, rfl⟩
    exact ⟨field2 w, ⟨by simp, rfl⟩, natOfBytes_field2 w⟩

theorem parses_s4 :
    Parses s4 fun _ bytes n => ∃ w : Int32, bytes = field4 w.toUInt32 ∧ w.toInt = n := by
  refine (parses_take 4).map.congr fun _ bytes n => ⟨?_, ?_⟩
  · rintro ⟨_, ⟨hl, rfl⟩, rfl⟩
    have hl : bytes.length = 4 := by omega
    obtain ⟨w, rfl⟩ := exists_field4 hl
    exact ⟨w.toInt32, rfl, (intOfBytes_field4 w.toInt32).symm⟩
  · rintro ⟨w, rfl, rfl⟩
    exact ⟨field4 w.toUInt32, ⟨by simp, rfl⟩, intOfBytes_field4 w⟩

-- ---------------------------------------------------------------------------
-- Reading what was written
-- ---------------------------------------------------------------------------

/-- Wherever the bytes come next, the decoder takes them and gives `a`. -/
def Reads (d : Decoder α) (bytes : List UInt8) (a : α) : Prop :=
  ∀ c : Cursor, c.Faces bytes → d c = .ok a (c.advance bytes.length)

theorem reads_pure (a : α) : Reads (pure a) [] a := fun _ _ => rfl

theorem Reads.bind {d : Decoder α} {f : α → Decoder β} (hd : Reads d bytes a)
    (hf : Reads (f a) more b) : Reads (d >>= f) (bytes ++ more) b := by
  intro c hc
  obtain ⟨hbytes, hmore⟩ := Cursor.faces_append.mp hc
  rw [bind_ok]
  exact ⟨a, _, hd c hbytes, by simpa using hf _ hmore⟩

/-- What comes after the last read takes nothing. -/
theorem Reads.last {d : Decoder α} {f : α → Decoder β} (hd : Reads d bytes a)
    (hf : Reads (f a) [] b) : Reads (d >>= f) bytes b := by
  have h := hd.bind hf
  rwa [List.append_nil] at h

theorem Reads.map {d : Decoder α} (f : α → β) (hd : Reads d bytes a) :
    Reads (f <$> d) bytes (f a) := by
  intro c hc
  rw [map_ok]
  exact ⟨a, hd c hc, rfl⟩

theorem Reads.charging (kind : FaultKind) (hd : Reads d bytes a) :
    Reads (charging kind d) bytes a := by
  intro c hc
  simp only [Decoder.charging, hd { c with blame := kind } hc]
  rfl

/-- What a decoder does may depend on how much is left, as long as the bytes are there. -/
theorem reads_get {f : Cursor → Decoder α}
    (h : ∀ c : Cursor, c.Faces bytes → Reads (f c) bytes a) : Reads (get >>= f) bytes a :=
  fun c hc => h c hc c hc

theorem reads_take (bytes : List UInt8) : Reads (take bytes.length) bytes bytes :=
  fun _ hc => take_ok.mpr ⟨rfl, hc, rfl⟩

theorem reads_skip (bytes : List UInt8) : Reads (skip bytes.length) bytes () :=
  fun _ hc => skip_ok.mpr ⟨bytes, rfl, hc, rfl⟩

theorem reads_u1 (b : UInt8) : Reads u1 [b] b.toNat := by
  have hd := (reads_take [b]).map natOfBytes
  rw [natOfBytes_singleton] at hd
  exact hd

theorem reads_u2 (h : n < 0x10000) : Reads u2 (bigEndian 2 n) n := by
  have hd := (reads_take (bigEndian 2 n)).map natOfBytes
  rw [length_bigEndian, natOfBytes_bigEndian h] at hd
  exact hd

theorem reads_u4 (h : n < 0x100000000) : Reads u4 (bigEndian 4 n) n := by
  have hd := (reads_take (bigEndian 4 n)).map natOfBytes
  rw [length_bigEndian, natOfBytes_bigEndian h] at hd
  exact hd

theorem reads_field2 (w : UInt16) : Reads u2 (field2 w) w.toNat := reads_u2 w.toNat_lt

theorem reads_ofPool (h : result = .ok a) : Reads (ofPool result) [] a := by
  subst h
  exact reads_pure a

theorem reads_timesFrom {xs : List β} {d : Decoder α} {encode : β → List UInt8} {value : β → α}
    (h : ∀ x ∈ xs, Reads d (encode x) (value x)) (done : List α) :
    Reads (timesFrom d xs.length done) (xs.flatMap encode) (done.reverse ++ xs.map value) := by
  induction xs generalizing done with
  | nil =>
    rw [List.map_nil, List.append_nil]
    exact reads_pure done.reverse
  | cons x xs ih =>
    have hrest := ih (fun y hy => h y (List.mem_cons_of_mem _ hy)) (value x :: done)
    rw [List.reverse_cons, List.append_assoc] at hrest
    exact (h x List.mem_cons_self).bind hrest

theorem reads_times {xs : List β} {d : Decoder α} {encode : β → List UInt8} {value : β → α}
    (h : ∀ x ∈ xs, Reads d (encode x) (value x)) :
    Reads (times xs.length d) (xs.flatMap encode) (xs.map value) := reads_timesFrom h []

end Decoder

end Callsite
