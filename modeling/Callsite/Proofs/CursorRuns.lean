import Callsite.Proofs.Decoding
import Mathlib.Data.Nat.Digits.Defs

/-!
# Runs of a cursor

A run makes reads of any kind and length one after the other, and goes on after those that fail. A read
succeeds exactly if it fits; then the cursor moves by its width and the value is that of the bytes passed
over. A read that fails is charged to the cursor's kind of fault and moves nothing. So the bytes that a
run reads lie side by side, from where the cursor stood to where it ends (`steps_tile`).
-/

namespace Callsite

-- ---------------------------------------------------------------------------
-- Values of bytes
-- ---------------------------------------------------------------------------

/-- Bytes as digits of a number to the base 256, the highest first. -/
def unsigned (bytes : List UInt8) : Nat := Nat.ofDigits 256 (bytes.reverse.map UInt8.toNat)

/-- The same bits in two's complement. -/
def signed (bytes : List UInt8) : Int := (BitVec.ofNat (8 * bytes.length) (unsigned bytes)).toInt

theorem natOfBytes_eq_unsigned (bytes : List UInt8) : natOfBytes bytes = unsigned bytes := by
  induction bytes using List.reverseRecOn with
  | nil => rfl
  | append_singleton bytes b ih =>
    simp [natOfBytes_concat, ih, unsigned, Nat.ofDigits_cons]
    omega

theorem intOfBytes_eq_signed (bytes : List UInt8) : intOfBytes bytes = signed bytes := by
  have hspan : Nat.pow 256 bytes.length = 2 ^ (8 * bytes.length) := by
    rw [Nat.pow_mul]
    rfl
  have hlt : unsigned bytes < 2 ^ (8 * bytes.length) := by
    rw [← natOfBytes_eq_unsigned, ← hspan]
    exact natOfBytes_lt bytes
  simp only [intOfBytes, signed, BitVec.toInt_eq_toNat_cond, BitVec.toNat_ofNat, hspan,
    natOfBytes_eq_unsigned, Nat.mod_eq_of_lt hlt]

-- ---------------------------------------------------------------------------
-- Reads
-- ---------------------------------------------------------------------------

namespace Decoder

theorem map_of_error {d : Decoder α} (f : α → β) (h : d c = .error e c') :
    (f <$> d) c = .error e c' := by
  show EStateM.map f d c = _
  rw [EStateM.map, h]

theorem skip_of_not_fits {n : Int} {c : Cursor} (h : ¬(0 ≤ n ∧ c.offset + n ≤ c.data.size)) :
    ∃ fault, skip n c = .error fault c ∧ fault.kind = c.blame := by
  unfold skip
  split
  next => exact ⟨_, rfl, rfl⟩
  next =>
    split
    next => omega
    next => exact ⟨_, rfl, rfl⟩

theorem take_of_not_fits {n : Int} {c : Cursor} (h : ¬(0 ≤ n ∧ c.offset + n ≤ c.data.size)) :
    ∃ fault, take n c = .error fault c ∧ fault.kind = c.blame := by
  obtain ⟨fault, hskip, hkind⟩ := skip_of_not_fits h
  have hget : (get : Decoder Cursor) c = .ok c c := rfl
  exact ⟨fault, (bind_of_ok hget).trans (bind_of_error hskip), hkind⟩

end Decoder

namespace Read

/-- How many bytes a read asks for. -/
def width : Read → Int
  | .u1 | .s1 => 1
  | .u2 => 2
  | .u4 | .s4 => 4
  | .bytes n | .skip n => n

/-- What the bytes in the range of a read stand for. -/
def denote : Read → List UInt8 → ReadValue
  | .u1, range | .u2, range | .u4, range => .number (unsigned range)
  | .s1, range | .s4, range => .number (signed range)
  | .bytes _, range => .bytes range
  | .skip _, _ => .nothing

/-- The read asks for no less than nothing and no more than there is. -/
def Fits (read : Read) (c : Cursor) : Prop :=
  0 ≤ read.width ∧ c.offset + read.width ≤ c.data.size

variable {read : Read} {c : Cursor}

theorem run_of_faces (hwidth : (range.length : Int) = read.width) (h : c.Faces range) :
    read.run c = .ok (read.denote range) (c.advance range.length) := by
  have htake : Decoder.take read.width c = .ok range (c.advance range.length) :=
    Decoder.take_ok.mpr ⟨hwidth, h, rfl⟩
  cases read with
  | u1 | u2 | u4 =>
    refine Decoder.map_ok.mpr ⟨_, Decoder.map_ok.mpr ⟨range, htake, rfl⟩, ?_⟩
    simp [denote, natOfBytes_eq_unsigned]
  | s1 | s4 =>
    refine Decoder.map_ok.mpr ⟨_, Decoder.map_ok.mpr ⟨range, htake, rfl⟩, ?_⟩
    simp [denote, intOfBytes_eq_signed]
  | bytes n => exact Decoder.map_ok.mpr ⟨range, htake, rfl⟩
  | skip n => exact Decoder.map_ok.mpr ⟨(), Decoder.skip_ok.mpr ⟨range, hwidth, h, rfl⟩, rfl⟩

theorem run_of_not_fits (h : ¬read.Fits c) :
    ∃ fault, read.run c = .error fault c ∧ fault.kind = c.blame := by
  obtain ⟨fault, htake, hkind⟩ := Decoder.take_of_not_fits h
  obtain ⟨fault', hskip, hkind'⟩ := Decoder.skip_of_not_fits h
  cases read with
  | u1 | s1 | u2 | u4 | s4 =>
    exact ⟨fault, Decoder.map_of_error _ (Decoder.map_of_error _ htake), hkind⟩
  | bytes n => exact ⟨fault, Decoder.map_of_error _ htake, hkind⟩
  | skip n => exact ⟨fault', Decoder.map_of_error _ hskip, hkind'⟩

end Read

-- ---------------------------------------------------------------------------
-- Steps
-- ---------------------------------------------------------------------------

namespace Cursor

/-- A read in a run, with the cursor before and after it. -/
structure Step where
  read : Read
  before : Cursor
  result : Except Fault ReadValue
  after : Cursor

def step (c : Cursor) (read : Read) : Step :=
  match read.run c with
  | .ok value after => ⟨read, c, .ok value, after⟩
  | .error fault after => ⟨read, c, .error fault, after⟩

/-- The steps of a run. Each starts where the one before left the cursor, also if that one failed. -/
def steps (c : Cursor) : List Read → List Step
  | [] => []
  | read :: reads => c.step read :: (c.step read).after.steps reads

/-- Where a run leaves the cursor. -/
def finish (c : Cursor) (reads : List Read) : Cursor :=
  reads.foldl (fun c read => (c.step read).after) c

theorem finish_cons (c : Cursor) (read : Read) (reads : List Read) :
    c.finish (read :: reads) = (c.step read).after.finish reads := rfl

/-- What a step does in a run over the given data whose faults are of the given kind. -/
structure Step.Sound (data : Array UInt8) (blame : FaultKind) (s : Step) : Prop where
  succeeds : s.result.isOk = true ↔
    0 ≤ s.read.width ∧ s.before.offset + s.read.width ≤ data.size
  moves : ∀ value, s.result = .ok value →
    s.after = { s.before with offset := s.after.offset } ∧
      s.after.offset = s.before.offset + s.read.width
  value : ∀ value, s.result = .ok value →
    value = s.read.denote (data.toList.extract s.before.offset s.after.offset)
  fails : ∀ fault, s.result = .error fault → fault.kind = blame ∧ s.after = s.before

/-- A run may get from one cursor to the other: only the offset grows, and not past the end. -/
def Reaches (c c' : Cursor) : Prop := (∃ n, c' = c.advance n) ∧ (c.Inside → c'.Inside)

theorem Reaches.refl (c : Cursor) : c.Reaches c := ⟨⟨0, rfl⟩, id⟩

theorem Reaches.trans (h : Reaches c c') (h' : Reaches c' c'') : Reaches c c'' := by
  obtain ⟨⟨n, rfl⟩, hinside⟩ := h
  obtain ⟨⟨m, rfl⟩, hinside'⟩ := h'
  exact ⟨⟨n + m, by simp⟩, fun hc => hinside' (hinside hc)⟩

theorem Reaches.le (h : Reaches c c') : c.offset ≤ c'.offset := by
  obtain ⟨⟨n, rfl⟩, -⟩ := h
  simp

theorem Reaches.data (h : Reaches c c') : c'.data = c.data := by
  obtain ⟨⟨n, rfl⟩, -⟩ := h
  rfl

theorem Reaches.blame (h : Reaches c c') : c'.blame = c.blame := by
  obtain ⟨⟨n, rfl⟩, -⟩ := h
  rfl

variable {c : Cursor} {read : Read}

theorem ahead_eq_extract (c : Cursor) (n : Nat) :
    c.ahead n = c.data.toList.extract c.offset (c.advance n).offset := by
  simp [ahead]

theorem step_of_fits (h : read.Fits c) :
    c.step read = ⟨read, c, .ok (read.denote (c.ahead read.width.toNat)), c.advance read.width.toNat⟩ ∧
      (c.advance read.width.toNat).Inside := by
  obtain ⟨hpos, hend⟩ := h
  have hfits : c.offset + read.width.toNat ≤ c.data.size := by omega
  obtain ⟨hfaces, hlength⟩ := faces_ahead hfits
  have hrun : read.run c = .ok (read.denote (c.ahead read.width.toNat)) (c.advance _) :=
    Read.run_of_faces (by omega) hfaces
  rw [hlength] at hrun
  refine ⟨?_, hfits⟩
  unfold step
  rw [hrun]

theorem step_of_not_fits (h : ¬read.Fits c) :
    ∃ fault, fault.kind = c.blame ∧ c.step read = ⟨read, c, .error fault, c⟩ := by
  obtain ⟨fault, hrun, hkind⟩ := Read.run_of_not_fits h
  refine ⟨fault, hkind, ?_⟩
  unfold step
  rw [hrun]

@[simp] theorem read_step (c : Cursor) (read : Read) : (c.step read).read = read := by
  unfold step
  cases read.run c <;> rfl

@[simp] theorem before_step (c : Cursor) (read : Read) : (c.step read).before = c := by
  unfold step
  cases read.run c <;> rfl

theorem reaches_step (c : Cursor) (read : Read) : c.Reaches (c.step read).after := by
  by_cases h : read.Fits c
  · obtain ⟨hstep, hinside⟩ := step_of_fits h
    rw [hstep]
    exact ⟨⟨_, rfl⟩, fun _ => hinside⟩
  · obtain ⟨fault, -, hstep⟩ := step_of_not_fits h
    rw [hstep]
    exact .refl c

theorem sound_step (c : Cursor) (read : Read) : (c.step read).Sound c.data c.blame := by
  by_cases h : read.Fits c
  · obtain ⟨hstep, -⟩ := step_of_fits h
    rw [hstep]
    refine ⟨⟨fun _ => h, fun _ => rfl⟩, ?_, ?_, nofun⟩
    · intro value _
      refine ⟨rfl, ?_⟩
      rw [offset_advance, Int.natCast_add, Int.toNat_of_nonneg h.1]
    · rintro value ⟨⟩
      rw [ahead_eq_extract]
  · obtain ⟨fault, hkind, hstep⟩ := step_of_not_fits h
    rw [hstep]
    refine ⟨⟨nofun, fun hfits => absurd hfits h⟩, nofun, nofun, ?_⟩
    rintro fault ⟨⟩
    exact ⟨hkind, rfl⟩

-- ---------------------------------------------------------------------------
-- Runs
-- ---------------------------------------------------------------------------

/-- Every step starts where the one before left the cursor. -/
def Linked : Cursor → List Step → Cursor → Prop
  | c, [], c' => c = c'
  | c, s :: rest, c' => s.before = c ∧ Linked s.after rest c'

/-- The ranges of the steps that succeed. -/
def taken (steps : List Step) : List (Nat × Nat) :=
  (steps.filter fun s => s.result.isOk).map fun s => (s.before.offset, s.after.offset)

/-- The ranges lie side by side from one offset to another. -/
def Adjacent : Nat → List (Nat × Nat) → Nat → Prop
  | start, [], stop => start = stop
  | start, (first, last) :: rest, stop => first = start ∧ first ≤ last ∧ Adjacent last rest stop

theorem Adjacent.le (h : Adjacent start spans stop) : start ≤ stop := by
  induction spans generalizing start with
  | nil => exact Nat.le_of_eq h
  | cons range rest ih =>
    obtain ⟨rfl, hle, hrest⟩ := h
    exact Nat.le_trans hle (ih hrest)

theorem extract_append_extract (bytes : List UInt8) (hfirst : i ≤ j) (hlast : j ≤ k) :
    bytes.extract i j ++ bytes.extract j k = bytes.extract i k := by
  obtain ⟨m, rfl⟩ := Nat.exists_eq_add_of_le hfirst
  obtain ⟨n, rfl⟩ := Nat.exists_eq_add_of_le hlast
  simp only [List.extract_eq_take_drop, Nat.add_sub_cancel_left, ← List.drop_drop]
  rw [Nat.add_assoc, Nat.add_sub_cancel_left, List.take_add]

/-- Ranges that lie side by side leave no byte out and have none twice. -/
theorem Adjacent.flatMap_extract (h : Adjacent start spans stop) (bytes : List UInt8) :
    spans.flatMap (fun range => bytes.extract range.1 range.2) = bytes.extract start stop := by
  induction spans generalizing start with
  | nil =>
    obtain rfl : start = stop := h
    simp
  | cons range rest ih =>
    obtain ⟨rfl, hle, hrest⟩ := h
    simp only [List.flatMap_cons, ih hrest]
    exact extract_append_extract bytes hle hrest.le

theorem map_read_steps (c : Cursor) (reads : List Read) : (c.steps reads).map Step.read = reads := by
  induction reads generalizing c with
  | nil => rfl
  | cons read reads ih => simp [steps, ih]

theorem linked_steps (c : Cursor) (reads : List Read) :
    Linked c (c.steps reads) (c.finish reads) := by
  induction reads generalizing c with
  | nil => rfl
  | cons read reads ih => exact ⟨before_step c read, ih (c.step read).after⟩

theorem reaches_finish (c : Cursor) (reads : List Read) : c.Reaches (c.finish reads) := by
  induction reads generalizing c with
  | nil => exact .refl c
  | cons read reads ih => exact (reaches_step c read).trans (ih (c.step read).after)

/-- A step of a run is a step from a cursor on the way. -/
theorem exists_of_mem_steps (h : s ∈ c.steps reads) :
    ∃ c' read, s = c'.step read ∧ c.Reaches c' ∧ s.after.Reaches (c.finish reads) := by
  induction reads generalizing c with
  | nil => cases h
  | cons read reads ih =>
    cases h with
    | head => exact ⟨c, read, rfl, .refl c, reaches_finish _ reads⟩
    | tail _ hrest =>
      obtain ⟨c', read', hstep, hreaches, hfinish⟩ := ih hrest
      exact ⟨c', read', hstep, (reaches_step c read).trans hreaches, hfinish⟩

theorem adjacent_steps (c : Cursor) (reads : List Read) :
    Adjacent c.offset (taken (c.steps reads)) (c.finish reads).offset := by
  induction reads generalizing c with
  | nil => rfl
  | cons read reads ih =>
    have hrest := ih (c.step read).after
    by_cases h : read.Fits c
    · obtain ⟨hstep, -⟩ := step_of_fits h
      have hle := (reaches_step c read).le
      rw [hstep] at hrest hle
      simp only [steps, finish_cons, hstep]
      exact ⟨rfl, hle, hrest⟩
    · obtain ⟨fault, -, hstep⟩ := step_of_not_fits h
      rw [hstep] at hrest
      simp only [steps, finish_cons, hstep]
      exact hrest

/-- A run makes every read. Each succeeds if and only if it fits; then the cursor moves by its width, and
the value is that of the bytes passed over. If it fails, it does so with the cursor's kind of fault and
moves nothing. The cursor never goes back, nor past the end if it does not start there. The ranges of the
reads that succeed lie side by side from where the run starts to where it ends. -/
theorem steps_tile (c : Cursor) (reads : List Read) :
    (c.steps reads).map Step.read = reads ∧
    Linked c (c.steps reads) (c.finish reads) ∧
    (∀ s ∈ c.steps reads, s.Sound c.data c.blame) ∧
    (∀ s ∈ c.steps reads, c.offset ≤ s.before.offset ∧ s.before.offset ≤ s.after.offset ∧
      s.after.offset ≤ (c.finish reads).offset) ∧
    (c.offset ≤ c.data.size → (c.finish reads).offset ≤ c.data.size) ∧
    Adjacent c.offset (taken (c.steps reads)) (c.finish reads).offset ∧
    (taken (c.steps reads)).flatMap (fun range => c.data.toList.extract range.1 range.2) =
      c.data.toList.extract c.offset (c.finish reads).offset := by
  have hfinish := reaches_finish c reads
  refine ⟨map_read_steps c reads, linked_steps c reads, ?_, ?_, ?_, adjacent_steps c reads,
    (adjacent_steps c reads).flatMap_extract _⟩
  · intro s hs
    obtain ⟨c', read, rfl, hreaches, -⟩ := exists_of_mem_steps hs
    have hsound := sound_step c' read
    rwa [hreaches.data, hreaches.blame] at hsound
  · intro s hs
    obtain ⟨c', read, rfl, hreaches, hlast⟩ := exists_of_mem_steps hs
    have hstep := (reaches_step c' read).le
    simpa using ⟨hreaches.le, hstep, hlast.le⟩
  · intro hinside
    have hlast := hfinish.2 hinside
    rwa [Inside, hfinish.data] at hlast

-- the second, third and last read fail, and what comes next is not moved by them
example : ((ofBytes [0xFF, 0x01, 0x80]).steps [.s1, .u4, .bytes (-1), .u2, .skip 0, .u1]).map
    (fun s => (s.result.toOption, s.after.offset)) =
      [(some (.number (-1)), 1), (none, 1), (none, 1), (some (.number 0x180), 3), (some .nothing, 3),
        (none, 3)] := by decide

end Cursor

end Callsite
