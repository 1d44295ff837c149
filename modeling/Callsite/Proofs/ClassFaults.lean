import Callsite.Outcome
import Callsite.Proofs.FaultKinds
import Callsite.Proofs.Scanning

/-!
# Where a class file is refused

The kind of a class's fault can be told from its first eight bytes: a wrong magic number and an old
version have kinds of their own, and behind them only two kinds are left. A broken method body is never
among them.
-/

namespace Callsite

open Decoder

namespace ClassFile

theorem raises_skipAttributes : Raises skipAttributes blame (blame :: kinds) := by
  refine raises_u2.bind fun n => (Raises.times ?_ n).bind fun _ => raises_pure ()
  exact (raises_skip 2).bind fun _ => raises_u4.bind fun n => raises_skip n

/-- Every fault of the body of a `Code` attribute is one that is caught there. -/
theorem raises_decodeCodeBody (method : Text) :
    Raises (decodeCodeBody method) .malformedBytecode [.malformedBytecode] := by
  refine raises_u2.bind fun maxStack => raises_u2.bind fun maxLocals => ?_
  refine raises_u4.bind fun length => raises_get.bind fun c => (raises_throw _ (.head _)).ite ?_
  refine (raises_take _).bind fun bytes => raises_u2.bind fun handlers => ?_
  exact (raises_skip _).bind fun _ => raises_skipAttributes.bind fun _ => raises_pure _

variable (pool : ConstantPool)

theorem raises_decodeAttribute : Raises (decodeAttribute pool) .malformedClassFile
    [.malformedClassFile, .malformedConstantPool] := by
  refine raises_u2.bind fun index => (raises_ofPool _ (.tail _ (.head _))).bind fun name => ?_
  exact raises_u4.bind fun n => (raises_take n).bind fun body => raises_pure (name, body)

theorem raises_decodeMethodCode (method : Text) (n : Nat) (code : Option Code) :
    Raises (decodeMethodCode pool method n code) .malformedClassFile
      [.malformedClassFile, .malformedConstantPool] := by
  induction n generalizing code with
  | zero => exact raises_pure code
  | succ n ih =>
    refine (raises_decodeAttribute pool).bind fun found => ?_
    refine Raises.ite ?_ (ih code)
    cases code with
    | none => exact ih _
    | some _ => exact raises_throw _ (.head _)

theorem raises_decodeMethod : Raises (decodeMethod pool) .malformedClassFile
    [.malformedClassFile, .malformedConstantPool] := by
  refine raises_u2.bind fun access => ?_
  refine raises_u2.bind fun index => (raises_ofPool _ (.tail _ (.head _))).bind fun name => ?_
  refine raises_u2.bind fun index => (raises_ofPool _ (.tail _ (.head _))).bind fun descriptor => ?_
  refine raises_u2.bind fun n => (raises_decodeMethodCode pool _ n none).bind fun code => ?_
  exact raises_pure _

theorem raises_decodeClassName : Raises (decodeClassName pool) .malformedClassFile
    [.malformedClassFile, .malformedConstantPool] :=
  raises_u2.bind fun _ => raises_ofPool _ (.tail _ (.head _))

theorem raises_decodeSuperName : Raises (decodeSuperName pool) .malformedClassFile
    [.malformedClassFile, .malformedConstantPool] :=
  raises_u2.bind fun _ => (raises_pure none).ite ((raises_ofPool _ (.tail _ (.head _))).map some)

/-- Past the check of the version, only two kinds are left. -/
theorem exists_decodeBody : ∃ rest : Nat → Nat → Decoder ClassFile,
    decodeBody = (do
      let minor ← u2
      let major ← u2
      if major < oldestMajor then throw (.oldVersion major minor) else rest minor major) ∧
    ∀ minor major, Raises (rest minor major) .malformedClassFile
      [.malformedClassFile, .malformedConstantPool] := by
  refine ⟨_, rfl, fun minor major => ?_⟩
  have hpool : ∀ count : Int, Raises (ConstantPool.decode count) .malformedClassFile
      [.malformedClassFile, .malformedConstantPool] :=
    fun count => (ConstantPool.raises_decode count).mono (List.subset_cons_self _ _)
  refine raises_u2.bind fun count => (hpool count).bind fun pool => ?_
  refine raises_u2.bind fun access => (raises_decodeClassName pool).bind fun name => ?_
  refine (raises_decodeSuperName pool).bind fun superName => ?_
  refine raises_u2.bind fun n => ((raises_decodeClassName pool).times n).bind fun interfaces => ?_
  have hfield : Raises skipField .malformedClassFile
      [.malformedClassFile, .malformedConstantPool] :=
    (raises_skip 6).bind fun _ => raises_skipAttributes
  refine raises_u2.bind fun n => (hfield.times n).bind fun _ => ?_
  refine raises_u2.bind fun n => ((raises_decodeMethod pool).times n).bind fun methods => ?_
  exact raises_skipAttributes.bind fun _ => raises_pure _

theorem u2_ok : u2 c = .ok n c' ↔
    ∃ bytes, bytes.length = 2 ∧ natOfBytes bytes = n ∧ c.Faces bytes ∧ c.advance 2 = c' := by
  simp only [u2, map_ok, take_ok]
  constructor
  · rintro ⟨bytes, ⟨hl, hfaces, rfl⟩, rfl⟩
    have hl : bytes.length = 2 := by omega
    exact ⟨bytes, hl, rfl, hfaces, by rw [hl]⟩
  · rintro ⟨bytes, hl, rfl, hfaces, rfl⟩
    exact ⟨bytes, ⟨by omega, hfaces, by rw [hl]⟩, rfl⟩

/-- The two numbers of the version come next, and the major one is too small. -/
def FacesOldVersion (c : Cursor) : Prop :=
  ∃ minor major : List UInt8, minor.length = 2 ∧ major.length = 2 ∧ c.Faces (minor ++ major) ∧
    natOfBytes major < oldestMajor

theorem decodeBody_kind (hc : c.blame = .malformedClassFile) (hnew : ¬FacesOldVersion c)
    (h : decodeBody c = .error e c') : e.kind ∈ [.malformedClassFile, .malformedConstantPool] := by
  obtain ⟨rest, hbody, hrest⟩ := exists_decodeBody
  rw [hbody] at h
  rcases bind_error.mp h with h | ⟨minor, c₁, hminor, h⟩
  · exact raises_u2.kind hc h
  · obtain ⟨minorBytes, hl, rfl, hfaces, rfl⟩ := u2_ok.mp hminor
    rcases bind_error.mp h with h | ⟨major, c₂, hmajor, h⟩
    · exact raises_u2.kind (c := c.advance 2) hc h
    · obtain ⟨majorBytes, hl', rfl, hfaces', rfl⟩ := u2_ok.mp hmajor
      rw [← hl] at hfaces'
      have hmodern : ¬natOfBytes majorBytes < oldestMajor := fun hold =>
        hnew ⟨minorBytes, majorBytes, hl, hl', Cursor.faces_append.mpr ⟨hfaces, hfaces'⟩, hold⟩
      rw [if_neg hmodern] at h
      exact (hrest _ _).kind (c := (c.advance 2).advance 2) hc h

theorem decodeBody_oldVersion (h : FacesOldVersion c) :
    ∃ e c', decodeBody c = .error e c' ∧ e.kind = .unsupportedVersion := by
  obtain ⟨rest, hbody, -⟩ := exists_decodeBody
  obtain ⟨minor, major, hl, hl', hfaces, hold⟩ := h
  obtain ⟨hminor, hmajor⟩ := Cursor.faces_append.mp hfaces
  rw [hl] at hmajor
  refine ⟨.oldVersion (natOfBytes major) (natOfBytes minor), (c.advance 2).advance 2, ?_, rfl⟩
  rw [hbody]
  refine bind_error.mpr (.inr ⟨_, _, u2_ok.mpr ⟨minor, hl, rfl, hminor, rfl⟩, ?_⟩)
  refine bind_error.mpr (.inr ⟨_, _, u2_ok.mpr ⟨major, hl', rfl, hmajor, rfl⟩, ?_⟩)
  rw [if_pos hold]
  rfl

-- ---------------------------------------------------------------------------
-- From the start of the data
-- ---------------------------------------------------------------------------

theorem bigEndian_magic : bigEndian 4 magic = [0xCA, 0xFE, 0xBA, 0xBE] := by decide

theorem magic_iff (data : List UInt8) :
    natOfBytes (data.take 4) = magic ↔ data.take 4 = [0xCA, 0xFE, 0xBA, 0xBE] := by
  rw [← bigEndian_magic]
  constructor
  · exact take_four_of_magic
  · intro h
    rw [h]
    exact natOfBytes_bigEndian (by decide)

/-- The major version stands in the seventh and eighth byte. -/
def OldVersion (data : List UInt8) : Prop :=
  8 ≤ data.length ∧ natOfBytes ((data.drop 6).take 2) < 45

theorem facesOldVersion_iff (data : List UInt8) :
    FacesOldVersion ((Cursor.ofBytes data).advance 4) ↔ OldVersion data := by
  constructor
  · rintro ⟨minor, major, hl, hl', ⟨front, tail, hf, hd⟩, hold⟩
    have hfront : front.length = 4 := hf
    have hdata : data = front ++ minor ++ (major ++ tail) := by
      simpa [Cursor.ofBytes] using hd
    have hdrop : data.drop 6 = major ++ tail := by
      rw [hdata]
      exact List.drop_left' (by simp [hfront, hl])
    refine ⟨by simp [hdata, hfront, hl, hl']; omega, ?_⟩
    rw [hdrop, List.take_left' hl']
    exact hold
  · rintro ⟨hlength, hold⟩
    refine ⟨(data.drop 4).take 2, (data.drop 6).take 2, by simp; omega, by simp; omega, ?_, hold⟩
    refine ⟨data.take 4, data.drop 8, by simp; omega, ?_⟩
    have hminor : (data.drop 4).take 2 ++ data.drop 6 = data.drop 4 := by
      simpa using List.take_append_drop 2 (data.drop 4)
    have hmajor : (data.drop 6).take 2 ++ data.drop 8 = data.drop 6 := by
      simpa using List.take_append_drop 2 (data.drop 6)
    simp [Cursor.ofBytes, hminor, hmajor]

/-- Behind a right magic number only the body is at fault. -/
theorem decode_error_of_magic {data : List UInt8} (h : natOfBytes (data.take 4) = magic) :
    decode data = .error fault ↔
      ∃ c, decodeBody ((Cursor.ofBytes data).advance 4) = .error fault c := by
  have hfaces : (Cursor.ofBytes data).Faces (bigEndian 4 magic) := by
    refine Cursor.faces_ofBytes.mpr ⟨data.drop 4, ?_⟩
    rw [← take_four_of_magic h]
    exact List.take_append_drop 4 data
  have hskip : skip 4 (Cursor.ofBytes data) = .ok () ((Cursor.ofBytes data).advance 4) :=
    skip_ok.mpr ⟨bigEndian 4 magic, by simp, hfaces, rfl⟩
  have hrun : (do skip 4; decodeBody : Decoder ClassFile) (Cursor.ofBytes data) =
      decodeBody ((Cursor.ofBytes data).advance 4) := bind_of_ok hskip
  rw [decode, if_pos h, hrun]
  cases decodeBody ((Cursor.ofBytes data).advance 4) <;> simp

theorem decode_notAClassFile {data : List UInt8} (h : natOfBytes (data.take 4) ≠ magic) :
    decode data = .error (.badMagic (data.take 4)) := by
  rw [decode, if_neg h]

theorem decode_oldVersion {data : List UInt8} (h : natOfBytes (data.take 4) = magic)
    (hold : OldVersion data) : ∃ fault, decode data = .error fault ∧
      fault.kind = .unsupportedVersion := by
  obtain ⟨fault, c, hrun, hkind⟩ := decodeBody_oldVersion ((facesOldVersion_iff data).mpr hold)
  exact ⟨fault, (decode_error_of_magic h).mpr ⟨c, hrun⟩, hkind⟩

theorem decode_kind {data : List UInt8} (h : natOfBytes (data.take 4) = magic)
    (hnew : ¬OldVersion data) (hfault : decode data = .error fault) :
    fault.kind ∈ [.malformedClassFile, .malformedConstantPool] := by
  obtain ⟨c, hrun⟩ := (decode_error_of_magic h).mp hfault
  exact decodeBody_kind rfl (fun hold => hnew ((facesOldVersion_iff data).mp hold)) hrun

/-- Whether the data are refused for a fault of this kind. -/
def RefusedFor (data : List UInt8) (kind : FaultKind) : Prop :=
  ∃ fault, decode data = .error fault ∧ fault.kind = kind

/-- The kinds of fault that refuse a class, and how the first bytes tell two of them. -/
structure FaultsScoped (data : List UInt8) : Prop where
  kinds : ∀ kind, RefusedFor data kind → kind ∈ [.notAClassFile, .unsupportedVersion,
    .malformedClassFile, .malformedConstantPool]
  notAClassFile : RefusedFor data .notAClassFile ↔
    data.length < 4 ∨ data.take 4 ≠ [0xCA, 0xFE, 0xBA, 0xBE]
  unsupportedVersion : RefusedFor data .unsupportedVersion ↔
    data.take 4 = [0xCA, 0xFE, 0xBA, 0xBE] ∧ OldVersion data

/-- The kind of the fault is settled by the magic number, then by the version, then by the rest. -/
theorem refusedFor_cases (h : RefusedFor data kind) :
    natOfBytes (data.take 4) ≠ magic ∧ kind = .notAClassFile ∨
    (natOfBytes (data.take 4) = magic ∧ OldVersion data) ∧ kind = .unsupportedVersion ∨
    (natOfBytes (data.take 4) = magic ∧ ¬OldVersion data) ∧
      kind ∈ [.malformedClassFile, .malformedConstantPool] := by
  obtain ⟨fault, hfault, rfl⟩ := h
  by_cases hmagic : natOfBytes (data.take 4) = magic
  · refine .inr ?_
    by_cases hold : OldVersion data
    · obtain ⟨fault', hfault', hkind⟩ := decode_oldVersion hmagic hold
      rw [hfault] at hfault'
      cases hfault'
      exact .inl ⟨⟨hmagic, hold⟩, hkind⟩
    · exact .inr ⟨⟨hmagic, hold⟩, decode_kind hmagic hold hfault⟩
  · rw [decode_notAClassFile hmagic] at hfault
    cases hfault
    exact .inl ⟨hmagic, rfl⟩

theorem decode_faultsScoped (data : List UInt8) : FaultsScoped data where
  kinds kind h := by
    rcases refusedFor_cases h with ⟨-, rfl⟩ | ⟨-, rfl⟩ | ⟨-, h⟩
    · simp
    · simp
    · exact List.mem_cons_of_mem _ (List.mem_cons_of_mem _ h)
  notAClassFile := by
    have hshort : data.length < 4 ∨ data.take 4 ≠ [0xCA, 0xFE, 0xBA, 0xBE] ↔
        natOfBytes (data.take 4) ≠ magic := by
      rw [ne_eq, ne_eq, magic_iff, or_iff_right_of_imp]
      intro hshort heq
      have hlength := congrArg List.length heq
      simp only [List.length_take, List.length_cons, List.length_nil] at hlength
      omega
    rw [hshort]
    constructor
    · intro h
      rcases refusedFor_cases h with ⟨hmagic, -⟩ | ⟨-, h⟩ | ⟨-, h⟩
      · exact hmagic
      · cases h
      · simp at h
    · intro hmagic
      exact ⟨_, decode_notAClassFile hmagic, rfl⟩
  unsupportedVersion := by
    rw [← magic_iff]
    constructor
    · intro h
      rcases refusedFor_cases h with ⟨-, h⟩ | ⟨hold, -⟩ | ⟨-, h⟩
      · cases h
      · exact hold
      · simp at h
    · rintro ⟨hmagic, hold⟩
      exact decode_oldVersion hmagic hold

end ClassFile

-- ---------------------------------------------------------------------------
-- What is recorded
-- ---------------------------------------------------------------------------

/-- A class that was skipped, for one of the kinds of fault that refuse a class. -/
def Failure.OfClass (f : Failure) : Prop :=
  f.scope = "class" ∧ f.kind ∈ (["NotAClassFile", "UnsupportedClassVersion", "MalformedClassFile",
    "MalformedConstantPool"] : List Text)

/-- A method that was skipped, for its code. -/
def Failure.OfMethod (f : Failure) : Prop := f.scope = "method" ∧ f.kind = "MalformedBytecode"

/-- The later diagnostics hold some more failures, each of a class or of a method. -/
def Diagnostics.Extends (d d' : Diagnostics) : Prop :=
  ∃ added, d'.failures.toList = d.failures.toList ++ added ∧
    ∀ f ∈ added, f.OfClass ∨ f.OfMethod

theorem mapError_error {x : Except ε α} {f : ε → ε'} :
    x.mapError f = .error e ↔ ∃ cause, x = .error cause ∧ f cause = e := by
  cases x <;> simp [Except.mapError]

theorem mapError_ok {x : Except ε α} {f : ε → ε'} : x.mapError f = .ok a ↔ x = .ok a := by
  cases x <;> simp [Except.mapError]

theorem decodeEntry_ofClass {failure : Failure} (h : decodeEntry name data = .error failure) :
    failure.OfClass ∧ failure.unit = name := by
  obtain ⟨fault, hfault, rfl⟩ := mapError_error.mp h
  have hkind := (ClassFile.decode_faultsScoped data).kinds _ ⟨fault, hfault, rfl⟩
  exact ⟨⟨rfl, List.mem_map_of_mem (f := fun kind : FaultKind => Text.ofString kind.label) hkind⟩, rfl⟩

theorem decodeMethod_ofMethod {m : Method} {failure : Failure}
    (h : decodeMethod file m = .error failure) :
    failure.OfMethod ∧ failure.unit = m.identity file.dottedName := by
  obtain ⟨fault, hfault, rfl⟩ := mapError_error.mp h
  have hkind := congrArg (fun kind : FaultKind => Text.ofString kind.label) (Method.instructions_fault hfault)
  exact ⟨⟨rfl, hkind⟩, rfl⟩

theorem Method.instructionsIn_fault {m : Method}
    (h : m.instructionsIn (some file) = .error fault) :
    ∃ cause, fault = .undecodable cause ∧ cause.kind = .malformedBytecode := by
  obtain ⟨cause, hcause, rfl⟩ := mapError_error.mp h
  exact ⟨cause, rfl, Method.instructions_fault hcause⟩

theorem Method.ofMethod_of_mem_failures {m : Method} (h : f ∈ m.failures file) : f.OfMethod := by
  rw [Method.failures] at h
  split at h
  next => cases h
  next failure hdecode =>
    rw [List.mem_singleton.mp h]
    exact (decodeMethod_ofMethod hdecode).1

theorem ClassFile.ofMethod_of_mem_failures {file : ClassFile}
    (h : f ∈ file.methods.flatMap (Method.failures file)) : f.OfMethod := by
  obtain ⟨m, -, hf⟩ := List.mem_flatMap.mp h
  exact Method.ofMethod_of_mem_failures hf

theorem Entry.scoped_of_mem_failures {e : Entry} (h : f ∈ e.failures) :
    f.OfClass ∨ f.OfMethod := by
  rw [Entry.failures] at h
  split at h
  next file _ => exact .inr (ClassFile.ofMethod_of_mem_failures h)
  next failure hdecode =>
    rw [List.mem_singleton.mp h]
    exact .inl (decodeEntry_ofClass hdecode).1

namespace Diagnostics

theorem extends_classFile (tools : List Tool) (file : ClassFile) (d : Diagnostics) :
    d.Extends (Scan.classFile tools file d).2 :=
  ⟨_, (Scan.classFile_adds tools file d).2, fun _ h => .inr (ClassFile.ofMethod_of_mem_failures h)⟩

theorem extends_classes (tools : List Tool) (p : Progress) (classes : List (List UInt8)) :
    p.diagnostics.Extends (p.classes tools classes).1.diagnostics := by
  obtain ⟨files, hfiles⟩ := p.failures_classes tools classes
  refine ⟨_, hfiles, fun f h => .inr ?_⟩
  obtain ⟨file, -, hf⟩ := List.mem_flatMap.mp h
  exact ClassFile.ofMethod_of_mem_failures hf

theorem extends_entries (tools : List Tool) (p : Progress) (es : List Entry) :
    p.diagnostics.Extends (p.entries tools es).diagnostics := by
  refine ⟨_, p.failures_entries tools es, fun f h => ?_⟩
  obtain ⟨e, -, hf⟩ := List.mem_flatMap.mp h
  exact Entry.scoped_of_mem_failures hf

end Diagnostics

/-- The failure of an archive that breaks off. -/
def Ending.failures (archive : Text) : Ending → List Failure
  | .unreadable fault => [fault.failure archive]
  | _ => []

/-- To the failures of its entries an archive adds at most its own. -/
theorem Outcome.failures_ofReading (tools : List Tool) (mode : Mode) (archive : Text)
    (reading : Reading) (d : Diagnostics) :
    (ofReading tools mode archive reading d).2.failures.toList =
      (Progress.entries tools { results := .empty mode, diagnostics := d }
        reading.entries).diagnostics.failures.toList ++ reading.ending.failures archive := by
  rw [ofReading, Ending.failures.eq_def]
  cases reading.ending with
  | complete => exact (List.append_nil _).symm
  | unreadable fault => exact Diagnostics.failures_record _ _
  | aborted cause => exact (List.append_nil _).symm

/-- Faults stay with the unit they belong to. Data are refused for a fault of a class only, a decoded
class has methods that fail for their code only, and a scan records nothing but such failures. -/
theorem faults_scoped :
    (∀ data, ClassFile.FaultsScoped data) ∧
    (∀ method body fault c,
      ClassFile.decodeCodeBody method (Cursor.ofBytes body .malformedBytecode) = .error fault c →
      fault.kind = .malformedBytecode) ∧
    (∀ data file, ClassFile.decode data = .ok file → ∀ m ∈ file.methods, ∀ fault,
      m.instructionsIn (some file) = .error fault →
      ∃ cause, fault = .undecodable cause ∧ cause.kind = .malformedBytecode) ∧
    (∀ name data failure, decodeEntry name data = .error failure →
      failure.OfClass ∧ failure.unit = name) ∧
    (∀ file m failure, decodeMethod file m = .error failure →
      failure.OfMethod ∧ failure.unit = m.identity file.dottedName) ∧
    (∀ tools file (d : Diagnostics), d.Extends (Scan.classFile tools file d).2) ∧
    (∀ tools (p : Progress) classes,
      p.diagnostics.Extends (p.classes tools classes).1.diagnostics) ∧
    (∀ tools (p : Progress) es, p.diagnostics.Extends (p.entries tools es).diagnostics) ∧
    (∀ tools mode archive reading (d : Diagnostics), ∃ d', d.Extends d' ∧
      (Outcome.ofReading tools mode archive reading d).2.failures.toList =
        d'.failures.toList ++ reading.ending.failures archive) := by
  refine ⟨ClassFile.decode_faultsScoped, ?_, ?_, fun _ _ _ => decodeEntry_ofClass,
    fun _ _ _ => decodeMethod_ofMethod, Diagnostics.extends_classFile, Diagnostics.extends_classes,
    Diagnostics.extends_entries, ?_⟩
  · intro method body fault c h
    exact List.mem_singleton.mp ((ClassFile.raises_decodeCodeBody method).kind rfl h)
  · intro _ file _ m _ fault h
    exact Method.instructionsIn_fault h
  · intro tools mode archive reading d
    exact ⟨_, Diagnostics.extends_entries tools { results := .empty mode, diagnostics := d } _,
      Outcome.failures_ofReading tools mode archive reading d⟩

/-- Version 44 is too old, two bytes of the magic number are too few, and a body that breaks off after
its first byte is the method's own fault. -/
theorem faults_scoped_samples :
    ClassFile.RefusedFor [0xCA, 0xFE, 0xBA, 0xBE, 0, 3, 0, 44] .unsupportedVersion ∧
    ClassFile.RefusedFor [0xCA, 0xFE] .notAClassFile ∧
    ∃ fault c, ClassFile.decodeCodeBody "f" (Cursor.ofBytes [0] .malformedBytecode) =
      .error fault c ∧ fault.kind = .malformedBytecode := by
  obtain ⟨hscoped, hbody, -⟩ := faults_scoped
  exact ⟨(hscoped _).unsupportedVersion.mpr ⟨rfl, by decide, by decide⟩,
    (hscoped _).notAClassFile.mpr (.inl (by decide)), _, _, rfl, hbody "f" [0] _ _ rfl⟩

end Callsite
