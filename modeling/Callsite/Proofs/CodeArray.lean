import Callsite.Proofs.Grammar

/-!
# Code arrays

A code array decodes exactly when it is assembled from lines, and then to the instructions of these
lines (`decodeCode_eq_ok`). The decoder counts its rounds; `Loop` is the loop without the count, and
`decodeCode_loop` says that the count never cuts it short.
-/

namespace Callsite

open Decoder

/-- Decoding while bytes are left: where the loop starts, how many instructions it tries, and how it
ends. -/
inductive Loop (pool : ConstantPool) : Cursor → Nat → Except Fault (List Instruction) → Prop
  | stop (h : c.left = 0) : Loop pool c 0 (.ok [])
  | fault (h : c.left ≠ 0) (hd : Instruction.decode pool c = .error e c') : Loop pool c 1 (.error e)
  | round (h : c.left ≠ 0) (hd : Instruction.decode pool c = .ok i c') (hrest : Loop pool c' n r) :
      Loop pool c (n + 1) (r.map (i :: ·))

namespace Instruction

variable {pool : ConstantPool} {c c' : Cursor}

theorem decodeFrom_succ : decodeFrom pool (rounds + 1) done c =
    (if c.left = 0 then pure done.reverse
      else decode pool >>= fun i => decodeFrom pool rounds (i :: done) : Decoder _) c := rfl

/-- With enough rounds the counted loop ends as the loop does. -/
theorem decodeFrom_loop (h : Loop pool c n r) (hn : n ≤ rounds) (done : List Instruction) :
    ∃ c', decodeFrom pool rounds done c = match r with
      | .ok instructions => .ok (done.reverse ++ instructions) c'
      | .error e => .error e c' := by
  induction h generalizing rounds done with
  | @stop c h =>
    refine ⟨c, ?_⟩
    cases rounds with
    | zero => simp [decodeFrom]; rfl
    | succ rounds => simp [decodeFrom_succ, h]; rfl
  | @fault c e c' h hd =>
    obtain ⟨rounds, rfl⟩ := Nat.exists_eq_add_of_le' hn
    refine ⟨c', ?_⟩
    rw [decodeFrom_succ, if_neg h]
    simp [bind, EStateM.bind, hd]
  | @round c i c' n r h hd hrest ih =>
    obtain ⟨rounds, rfl⟩ := Nat.exists_eq_add_of_le' hn
    obtain ⟨c'', hc''⟩ := ih (Nat.le_add_left n rounds) (i :: done)
    refine ⟨c'', ?_⟩
    rw [← Nat.add_assoc, decodeFrom_succ, if_neg h]
    simp only [bind, EStateM.bind, hd, hc'']
    cases r <;> simp [Except.map]

end Instruction

theorem decodeCode_loop (h : Loop pool (Cursor.ofBytes code .malformedBytecode) n r)
    (hn : n ≤ code.length) : decodeCode pool code = r := by
  obtain ⟨c', hc'⟩ := Instruction.decodeFrom_loop h hn []
  cases r <;> simp [decodeCode, hc']

namespace Loop

variable {pool : ConstantPool} {c : Cursor}

/-- The loop ends wherever it starts, after no more rounds than there are bytes left. -/
theorem exists_of_inside (pool : ConstantPool) (hc : c.Inside) :
    ∃ n r, n ≤ c.data.size - c.offset ∧ Loop pool c n r := by
  -- every instruction takes at least its opcode, so fewer bytes are left after it
  induction hleft : c.data.size - c.offset using Nat.strongRecOn generalizing c with
  | ind left ih =>
    by_cases h : c.left = 0
    · exact ⟨0, _, Nat.zero_le _, .stop h⟩
    · cases hd : Instruction.decode pool c with
      | error e c' =>
        refine ⟨1, _, ?_, .fault h hd⟩
        simp only [Cursor.left, Cursor.Inside] at h hc
        omega
      | ok i c' =>
        obtain ⟨_, ⟨line, rfl, rfl⟩, hfaces, rfl⟩ := (Instruction.parses_decode pool c hc i c').mp hd
        have hpos : 0 < line.bytes.length := by simp [Line.bytes]
        have hfits := hfaces.fits
        obtain ⟨n, r, hn, hloop⟩ := ih _ (by simp; omega) hfaces.inside_advance rfl
        refine ⟨n + 1, _, ?_, .round h hd hloop⟩
        simp at hn
        omega

/-- The loop goes through a program line by line. -/
theorem of_program (program : Program pool address) (hc : c.offset = address)
    (hfaces : c.Faces program.bytes) (hend : c.offset + program.bytes.length = c.data.size) :
    ∃ n, n ≤ program.bytes.length ∧ Loop pool c n (.ok program.instructions) := by
  induction program generalizing c with
  | done =>
    simp only [Program.bytes, List.length_nil] at hend
    exact ⟨0, Nat.le_refl _, .stop (by simp only [Cursor.left]; omega)⟩
  | line first rest ih =>
    subst hc
    obtain ⟨hfirst, hrest⟩ := Cursor.faces_append.mp hfaces
    have hpos : 0 < first.bytes.length := by simp [Line.bytes]
    simp only [Program.bytes, List.length_append] at hend ⊢
    have hd := (Instruction.parses_decode pool).run ⟨first, rfl, rfl⟩ hfirst
    obtain ⟨n, hn, hloop⟩ := ih rfl hrest (by simp; omega)
    exact ⟨n + 1, by omega, .round (by simp only [Cursor.left]; omega) hd hloop⟩

/-- A loop that ends well has gone through a program to the end of the data. -/
theorem exists_program (h : Loop pool c n (.ok instructions)) (hc : c.Inside) :
    ∃ program : Program pool c.offset, c.Faces program.bytes ∧
      c.offset + program.bytes.length = c.data.size ∧ program.instructions = instructions := by
  generalize hr : Except.ok instructions = r at h
  induction h generalizing instructions with
  | @stop c h =>
    cases hr
    refine ⟨.done, hc.faces_nil, ?_, rfl⟩
    simp only [Cursor.left] at h
    simp only [Program.bytes, List.length_nil]
    omega
  | fault => cases hr
  | @round c i c' n r h hd hrest ih =>
    obtain ⟨_, ⟨line, rfl, rfl⟩, hfaces, rfl⟩ := (Instruction.parses_decode pool c hc i c').mp hd
    cases r with
    | error e => cases hr
    | ok rest =>
      cases hr
      obtain ⟨program, hprogram, hend, rfl⟩ := ih hfaces.inside_advance rfl
      refine ⟨.line line program, Cursor.faces_append.mpr ⟨hfaces, hprogram⟩, ?_, rfl⟩
      simp only [Program.bytes, List.length_append]
      simp at hend
      omega

end Loop

/-- The loop over a whole code array ends after no more rounds than there are bytes, and the decoder
gives what it ends with. -/
theorem exists_loop_decodeCode (pool : ConstantPool) (code : List UInt8) :
    ∃ n, n ≤ code.length ∧
      Loop pool (Cursor.ofBytes code .malformedBytecode) n (decodeCode pool code) := by
  obtain ⟨n, r, hn, hloop⟩ :=
    Loop.exists_of_inside pool (Cursor.inside_ofBytes code .malformedBytecode)
  simp only [Cursor.size_ofBytes, Cursor.offset_ofBytes, Nat.sub_zero] at hn
  obtain rfl := decodeCode_loop hloop hn
  exact ⟨n, hn, hloop⟩

/-- A code array decodes exactly when it is assembled from lines. -/
theorem decodeCode_eq_ok : decodeCode pool code = .ok instructions ↔
    ∃ program : Program pool 0, program.bytes = code ∧ program.instructions = instructions := by
  constructor
  · intro h
    obtain ⟨n, -, hloop⟩ := exists_loop_decodeCode pool code
    rw [h] at hloop
    obtain ⟨program, hfaces, hend, hi⟩ := hloop.exists_program (Cursor.inside_ofBytes ..)
    simp only [Cursor.offset_ofBytes, Cursor.size_ofBytes, Nat.zero_add] at hend
    exact ⟨program, (Cursor.faces_ofBytes.mp hfaces).eq_of_length hend, hi⟩
  · rintro ⟨program, rfl, rfl⟩
    obtain ⟨n, hn, hloop⟩ := Loop.of_program program
      (Cursor.offset_ofBytes program.bytes .malformedBytecode)
      (Cursor.faces_ofBytes.mpr (List.prefix_refl _)) (by simp)
    exact decodeCode_loop hloop hn

/-- Decoding undoes assembling. -/
theorem decodeCode_program (program : Program pool 0) :
    decodeCode pool program.bytes = .ok program.instructions :=
  decodeCode_eq_ok.mpr ⟨program, rfl, rfl⟩

/-- A switch at address 1 has two bytes of padding; they may be anything. -/
example : decodeCode ⟨#[none]⟩
      ([0x00, 0xAA, 7, 7] ++ [0, 0, 0, 0] ++ [0xFF, 0xFF, 0xFF, 0xFF] ++ [0, 0, 0, 0] ++
        [1, 2, 3, 4, 5, 6, 7, 8] ++ [0xC4, 0x84, 0, 1, 0, 2]) =
    .ok [{ opcode := 0x00, address := 0, length := 1 },
      { opcode := Opcode.tableSwitch, address := 1, length := 23 },
      { opcode := Opcode.wide, address := 24, length := 6 }] := by
  decide +kernel

end Callsite
