import Callsite.Proofs.ClassEncoding

/-!
# What decides a success

A decoder is local when the bytes that it takes decide what it gives: it takes them the same way
wherever they come next, and whatever follows. All decoders of class files are local, so a class file
says by itself where it ends (`decode_delimited`). Decoders of instructions are not: the padding of a
switch depends on where it stands.
-/

namespace Callsite

namespace Cursor

/-- The same cursor over other data. -/
def onto (c : Cursor) (data : List UInt8) : Cursor := { c with data := data.toArray }

theorem Faces.of_prefix {c : Cursor} (h : (c.onto start).Faces bytes) (hstart : start <+: whole) :
    (c.onto whole).Faces bytes := by
  obtain ⟨front, tail, hfront, hsplit⟩ := h
  obtain ⟨rest, rfl⟩ := hstart
  refine ⟨front, tail ++ rest, hfront, ?_⟩
  simp only [onto] at hsplit ⊢
  simp [hsplit]

theorem Faces.of_take {c : Cursor} (h : c.Faces bytes) :
    (c.onto (c.data.toList.take (c.offset + bytes.length))).Faces bytes := by
  obtain ⟨front, tail, hfront, hsplit⟩ := h
  refine ⟨front, [], hfront, ?_⟩
  simp only [onto, List.append_nil]
  rw [hsplit, ← List.append_assoc]
  exact List.take_left' (by simp [hfront])

end Cursor

namespace Decoder

def Local (d : Decoder α) : Prop :=
  ∀ c : Cursor, c.Inside → ∀ a c', d c = .ok a c' →
    ∃ bytes, c.Faces bytes ∧ c.advance bytes.length = c' ∧ Reads d bytes a

/-- What a decoder reads is no shorter and no longer than what else it reads in the same place. -/
theorem Reads.unique {c : Cursor} (hd : Reads d bytes a) (hd' : Reads d bytes' a')
    (h : c.Faces bytes) (h' : c.Faces bytes') : a = a' ∧ bytes.length = bytes'.length :=
  run_unique (hd c h) (hd' c h')

theorem local_pure (a : α) : Local (pure a) := by
  intro c hc b c' h
  obtain ⟨rfl, rfl⟩ := pure_ok.mp h
  exact ⟨[], hc.faces_nil, rfl, reads_pure a⟩

theorem local_throw (e : Fault) : Local (throw e : Decoder α) := by
  intro c _ a c' h
  cases h

theorem Local.bind {d : Decoder α} {f : α → Decoder β} (hd : Local d) (hf : ∀ a, Local (f a)) :
    Local (d >>= f) := by
  intro c hc b c'' h
  obtain ⟨a, c', h, h'⟩ := bind_ok.mp h
  obtain ⟨front, hfront, rfl, hreads⟩ := hd c hc a c' h
  obtain ⟨back, hback, rfl, hreads'⟩ := hf a _ hfront.inside_advance b c'' h'
  exact ⟨front ++ back, Cursor.faces_append.mpr ⟨hfront, hback⟩, by simp, hreads.bind hreads'⟩

theorem Local.map {d : Decoder α} (f : α → β) (hd : Local d) : Local (f <$> d) := by
  intro c hc b c' h
  obtain ⟨a, hrun, rfl⟩ := map_ok.mp h
  obtain ⟨bytes, hfaces, hc', hreads⟩ := hd c hc a c' hrun
  exact ⟨bytes, hfaces, hc', hreads.map f⟩

theorem Local.ite {p : Prop} [Decidable p] {d e : Decoder α} (hd : Local d) (he : Local e) :
    Local (if p then d else e) := by
  split
  · exact hd
  · exact he

theorem Local.charging (kind : FaultKind) (hd : Local d) : Local (charging kind d) := by
  intro c hc a c' h
  obtain ⟨c₁, hrun, rfl⟩ := charging_ok.mp h
  obtain ⟨bytes, hfaces, rfl, hreads⟩ := hd { c with blame := kind } hc a c₁ hrun
  exact ⟨bytes, hfaces, rfl, hreads.charging kind⟩

theorem local_skip (n : Int) : Local (skip n) := by
  intro c _ u c' h
  obtain ⟨bytes, rfl, hfaces, rfl⟩ := skip_ok.mp h
  exact ⟨bytes, hfaces, rfl, reads_skip bytes⟩

theorem local_take (n : Int) : Local (take n) := by
  intro c _ bytes c' h
  obtain ⟨rfl, hfaces, rfl⟩ := take_ok.mp h
  exact ⟨bytes, hfaces, rfl, reads_take bytes⟩

theorem local_u1 : Local u1 := (local_take 1).map natOfBytes
theorem local_u2 : Local u2 := (local_take 2).map natOfBytes
theorem local_u4 : Local u4 := (local_take 4).map natOfBytes

theorem local_ofPool (r : Except PoolFault α) : Local (ofPool r) := by
  cases r with
  | ok a => exact local_pure a
  | error e => exact local_throw _

theorem Local.timesFrom {d : Decoder α} (hd : Local d) (n : Nat) (done : List α) :
    Local (timesFrom d n done) := by
  induction n generalizing done with
  | zero => exact local_pure done.reverse
  | succ n ih => exact hd.bind fun a => ih (a :: done)

theorem Local.times {d : Decoder α} (hd : Local d) (n : Nat) : Local (times n d) :=
  hd.timesFrom n []

/-- What stands after the bytes that were taken does not matter. -/
theorem Local.onto {d : Decoder α} {c c' : Cursor} (hd : Local d) (hc : c.Inside)
    (h : d c = .ok a c') (tail : List UInt8) :
    d (c.onto (c.data.toList.take c'.offset ++ tail)) =
      .ok a (c'.onto (c.data.toList.take c'.offset ++ tail)) := by
  obtain ⟨bytes, hfaces, rfl, hreads⟩ := hd c hc a c' h
  exact hreads _ (hfaces.of_take.of_prefix (List.prefix_append _ tail))

/-- Fewer bytes than were taken are not enough. -/
theorem Local.cut {d : Decoder α} {c c' : Cursor} (hd : Local d) (hc : c.Inside)
    (h : d c = .ok a c') (hstart : c.offset ≤ k) (hend : k < c'.offset) :
    d (c.onto (c.data.toList.take k)) ≠ .ok b c₁ := by
  intro hcut
  obtain ⟨bytes, hfaces, rfl, hreads⟩ := hd c hc a c' h
  simp only [Cursor.offset_advance] at hend
  have hsize : (c.data.toList.take k).length = k := by
    have hfits := hfaces.fits
    rw [List.length_take, Array.length_toList]
    omega
  have hinside : (c.onto (c.data.toList.take k)).Inside := by
    simpa [Cursor.Inside, Cursor.onto, hsize] using hstart
  obtain ⟨bytes', hfaces', -, hreads'⟩ := hd _ hinside _ _ hcut
  -- in the whole data the two readings have one length, and the second one fits the cut data
  have hlength := (hreads.unique hreads' hfaces (hfaces'.of_prefix (List.take_prefix k _))).2
  have hfits := hfaces'.fits
  simp only [Cursor.onto, List.size_toArray, hsize] at hfits
  omega

end Decoder

-- ---------------------------------------------------------------------------
-- Constant pools
-- ---------------------------------------------------------------------------

namespace ConstantPool

open Decoder

theorem local_decodeText : Local decodeText := by
  refine local_u2.bind fun n => (local_take n).bind fun raw => ?_
  cases ModifiedUtf8.decode? raw with
  | none => exact local_throw _
  | some text => exact local_pure _

theorem local_decodeConstant (index : Nat) : Local (decodeConstant index) := by
  refine local_u1.bind fun tag => local_decodeText.ite ?_
  cases payload? tag with
  | none => exact local_throw _
  | some layout => exact (local_take layout.1).map layout.2

theorem local_decodeSlots (n : Nat) (slots : Array (Option Constant)) :
    Local (decodeSlots n slots) := by
  induction n using Nat.strongRecOn generalizing slots with
  | ind n ih =>
    cases n with
    | zero => exact local_pure slots
    | succ n =>
      rw [decodeSlots]
      refine (local_decodeConstant slots.size).bind fun constant => ?_
      refine Local.ite ?_ ?_
      · -- a constant of eight bytes takes a second slot
        cases n with
        | zero => exact local_throw _
        | succ n => exact ih n (by omega) _
      · exact ih n (by omega) _

theorem local_decode (count : Int) : Local (decode count) := by
  refine (local_throw _).ite (Local.charging _ ?_)
  exact (local_decodeSlots _ _).bind fun slots => local_pure _

end ConstantPool

-- ---------------------------------------------------------------------------
-- Class files
-- ---------------------------------------------------------------------------

namespace ClassFile

open Decoder

variable (pool : ConstantPool)

theorem local_skipAttribute : Local skipAttribute :=
  (local_skip 2).bind fun _ => local_u4.bind fun n => local_skip n

theorem local_skipAttributes : Local skipAttributes :=
  local_u2.bind fun n => (local_skipAttribute.times n).bind fun _ => local_pure ()

theorem local_skipField : Local skipField :=
  (local_skip 6).bind fun _ => local_skipAttributes

theorem local_decodeAttribute : Local (decodeAttribute pool) := by
  refine local_u2.bind fun index => (local_ofPool _).bind fun name => ?_
  exact local_u4.bind fun n => (local_take n).bind fun body => local_pure (name, body)

theorem local_decodeMethodCode (method : Text) (n : Nat) (code : Option Code) :
    Local (decodeMethodCode pool method n code) := by
  induction n generalizing code with
  | zero => exact local_pure code
  | succ n ih =>
    refine (local_decodeAttribute pool).bind fun found => ?_
    refine Local.ite ?_ (ih code)
    cases code with
    | none => exact ih _
    | some _ => exact local_throw _

theorem local_decodeMethod : Local (decodeMethod pool) := by
  refine local_u2.bind fun access => ?_
  refine local_u2.bind fun index => (local_ofPool _).bind fun name => ?_
  refine local_u2.bind fun index => (local_ofPool _).bind fun descriptor => ?_
  refine local_u2.bind fun n => (local_decodeMethodCode pool _ n none).bind fun code => ?_
  exact local_pure _

theorem local_decodeClassName : Local (decodeClassName pool) :=
  local_u2.bind fun _ => local_ofPool _

theorem local_decodeSuperName : Local (decodeSuperName pool) :=
  local_u2.bind fun _ => (local_pure none).ite ((local_ofPool _).map some)

theorem local_decodeBody : Local decodeBody := by
  refine local_u2.bind fun minor => local_u2.bind fun major => (local_throw _).ite ?_
  refine local_u2.bind fun count => (ConstantPool.local_decode count).bind fun pool => ?_
  refine local_u2.bind fun access => (local_decodeClassName pool).bind fun name => ?_
  refine (local_decodeSuperName pool).bind fun superName => ?_
  refine local_u2.bind fun n => ((local_decodeClassName pool).times n).bind fun interfaces => ?_
  refine local_u2.bind fun n => (local_skipField.times n).bind fun _ => ?_
  refine local_u2.bind fun n => ((local_decodeMethod pool).times n).bind fun methods => ?_
  exact local_skipAttributes.bind fun _ => local_pure _

-- ---------------------------------------------------------------------------
-- Where a class file ends
-- ---------------------------------------------------------------------------

theorem take_four_of_magic {data : List UInt8} (h : natOfBytes (data.take 4) = magic) :
    data.take 4 = bigEndian 4 magic := by
  have hlength : (data.take 4).length = 4 := by
    have hle : (data.take 4).length ≤ 4 := List.length_take_le 4 data
    refine Nat.le_antisymm hle (Nat.not_lt.mp fun hlt => ?_)
    -- fewer bytes spell a smaller number
    have hsmall := Nat.pow_le_pow_right (show 0 < 256 by decide) (Nat.le_of_lt_succ hlt)
    have hmagic := Nat.lt_of_lt_of_le (natOfBytes_lt (data.take 4)) hsmall
    rw [h] at hmagic
    exact absurd hmagic (by decide)
  have hbytes := bigEndian_natOfBytes (data.take 4)
  rw [hlength, h] at hbytes
  exact hbytes.symm

/-- Data are accepted exactly when they start with the magic number and a body. -/
theorem decode_eq_ok : decode data = .ok file ↔
    ∃ body tail, data = bigEndian 4 magic ++ body ++ tail ∧ Reads decodeBody body file := by
  constructor
  · intro h
    rw [decode] at h
    split at h
    next hmagic =>
      split at h
      next result c hrun =>
        cases h
        obtain ⟨_, c₁, hskip, hbody⟩ := bind_ok.mp hrun
        obtain ⟨start, hstart, hfaces, rfl⟩ := skip_ok.mp hskip
        obtain ⟨body, hbodyFaces, -, hreads⟩ :=
          local_decodeBody _ hfaces.inside_advance _ _ hbody
        obtain ⟨tail, htail⟩ := Cursor.faces_ofBytes.mp (Cursor.faces_append.mpr ⟨hfaces, hbodyFaces⟩)
        have hfour : start.length = 4 := by omega
        have htake : start = bigEndian 4 magic := by
          rw [← take_four_of_magic hmagic, ← htail, List.append_assoc, ← hfour, List.take_left]
        exact ⟨body, tail, by rw [← htail, htake], hreads⟩
      next => cases h
    next => cases h
  · rintro ⟨body, tail, rfl, hreads⟩
    exact decode_of_reads hreads tail

/-- The class file at the start of the data ends at an offset: data cut there or later are accepted,
and data cut before it are refused. -/
structure EndsAt (data : List UInt8) (n : Nat) : Prop where
  inside : n ≤ data.length
  accepted : ∀ k ≤ data.length, (∃ file, decode (data.take k) = .ok file) ↔ n ≤ k
  refused : ∀ k < n, ∃ fault, decode (data.take k) = .error fault

theorem EndsAt.unique (h : EndsAt data n) (h' : EndsAt data m) : m = n := by
  have hle := (h'.accepted n h.inside).mp ((h.accepted n h.inside).mpr (Nat.le_refl n))
  have hge := (h.accepted m h'.inside).mp ((h'.accepted m h'.inside).mpr (Nat.le_refl m))
  omega

theorem endsAt_body (hreads : Reads decodeBody body file) (tail : List UInt8) :
    EndsAt (bigEndian 4 magic ++ body ++ tail) (4 + body.length) := by
  have haccepted : ∀ k ≤ (bigEndian 4 magic ++ body ++ tail).length,
      (∃ file, decode ((bigEndian 4 magic ++ body ++ tail).take k) = .ok file) ↔
        4 + body.length ≤ k := by
    intro k hk
    constructor
    · rintro ⟨file', hfile'⟩
      -- what the cut data hold is a prefix of the whole, where two readings agree on their length
      obtain ⟨body', tail', hcut, hreads'⟩ := decode_eq_ok.mp hfile'
      have hwhole : bigEndian 4 magic ++ (body' ++ (tail' ++ (bigEndian 4 magic ++ body ++ tail).drop k))
          = bigEndian 4 magic ++ (body ++ tail) := by
        have := List.take_append_drop k (bigEndian 4 magic ++ body ++ tail)
        rw [hcut] at this
        simpa using this
      have hsame := List.append_cancel_left hwhole
      have hlength := (hreads.unique hreads'
        (Cursor.faces_ofBytes.mpr (List.prefix_append body tail) : (Cursor.ofBytes _).Faces body)
        (Cursor.faces_ofBytes.mpr ⟨_, hsame⟩)).2
      have hcutLength := congrArg List.length hcut
      simp only [List.length_take, List.length_append, length_bigEndian] at hcutLength hk
      omega
    · intro hle
      refine ⟨file, ?_⟩
      have hsplit : (bigEndian 4 magic ++ body ++ tail).take k =
          bigEndian 4 magic ++ body ++ tail.take (k - (4 + body.length)) := by
        rw [List.take_append, List.take_of_length_le (by simpa using hle)]
        simp
      rw [hsplit]
      exact decode_of_reads hreads _
  refine ⟨by simp, haccepted, ?_⟩
  intro k hk
  cases hcut : decode ((bigEndian 4 magic ++ body ++ tail).take k) with
  | error fault => exact ⟨fault, rfl⟩
  | ok file' =>
    have hle := (haccepted k (by simp; omega)).mp ⟨file', hcut⟩
    omega

/-- Accepted data end their class file at one offset; what stands after it changes nothing. -/
theorem decode_delimited (h : decode data = .ok file) :
    ∃ n, EndsAt data n ∧ (∀ m, EndsAt data m → m = n) ∧
      ∀ tail, decode (data.take n ++ tail) = .ok file := by
  obtain ⟨body, tail, rfl, hreads⟩ := decode_eq_ok.mp h
  refine ⟨4 + body.length, endsAt_body hreads tail, fun m => (endsAt_body hreads tail).unique, ?_⟩
  intro tail'
  have htake : (bigEndian 4 magic ++ body ++ tail).take (4 + body.length) =
      bigEndian 4 magic ++ body := List.take_left' (by simp)
  rw [htake]
  exact decode_of_reads hreads tail'

/-- Two bytes after a class file are no part of it. -/
theorem decode_delimited_selfCaller :
    decode (ClassSource.selfCaller.bytes ++ [0, 0]) = .ok ClassSource.selfCaller.file ∧
    ∃ n, EndsAt (ClassSource.selfCaller.bytes ++ [0, 0]) n ∧
      n = ClassSource.selfCaller.bytes.length := by
  have hfile : decode (ClassSource.selfCaller.bytes ++ [0, 0]) = .ok ClassSource.selfCaller.file :=
    decode_of_reads (reads_decodeBody ClassSource.selfCaller) [0, 0]
  obtain ⟨n, hends, hunique, -⟩ := decode_delimited hfile
  have hbody := endsAt_body (reads_decodeBody ClassSource.selfCaller) [0, 0]
  refine ⟨hfile, n, hends, ?_⟩
  rw [← hunique _ hbody]
  rfl

end ClassFile

end Callsite
