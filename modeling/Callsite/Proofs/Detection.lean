import Callsite.Proofs.ClassEncoding
import Callsite.Proofs.CodeArray
import Callsite.Proofs.Scanning

/-!
# What a scan finds

Classes whose code is assembled from lines are scanned without a failure, and the findings are those
that can be read off the lines: every call, and on request every field access, of a member whose
owner matches.
-/

namespace Callsite

-- ---------------------------------------------------------------------------
-- References in programs
-- ---------------------------------------------------------------------------

namespace Line

variable {pool : ConstantPool} {address : Nat}

/-- The callee of a line of the call family. -/
def call? : Line pool address → Option MemberReference
  | .call _ _ reference .. | .interfaceCall _ reference .. => some reference
  | .dynamicCall _ _ name descriptor _ => some { owner := "java/lang/Object", name, descriptor }
  | .plain .. | .field .. | .tableSwitch .. | .lookupSwitch .. | .wide .. => none

/-- The field that a line reads or writes. -/
def field? : Line pool address → Option MemberReference
  | .field _ _ reference .. => some reference
  | .plain .. | .call .. | .interfaceCall .. | .dynamicCall .. | .tableSwitch ..
  | .lookupSwitch .. | .wide .. => none

theorem call?_instruction (line : Line pool address) : line.instruction.call? = line.call? := by
  cases line <;> rfl

theorem field?_instruction (line : Line pool address) : line.instruction.field? = line.field? := by
  cases line <;> rfl

end Line

namespace Program

variable {pool : ConstantPool}

/-- The members that lines name, in the order of the addresses. -/
def references (select : {address : Nat} → Line pool address → Option MemberReference) :
    Program pool address → List MemberReference
  | .done => []
  | .line first rest => (select first).toList ++ rest.references select

def calls (program : Program pool address) : List MemberReference := program.references Line.call?
def fields (program : Program pool address) : List MemberReference := program.references Line.field?

theorem filterMap_instructions {pick : Instruction → Option MemberReference}
    {select : {address : Nat} → Line pool address → Option MemberReference}
    (h : ∀ {address} (line : Line pool address), pick line.instruction = select line)
    (program : Program pool address) :
    program.instructions.filterMap pick = program.references select := by
  induction program with
  | done => rfl
  | line first rest ih =>
    rw [instructions, references, List.filterMap_cons, h first, ih]
    cases select first <;> rfl

end Program

-- ---------------------------------------------------------------------------
-- Classes with assembled code
-- ---------------------------------------------------------------------------

/-- The code of a method is laid out and is that of the program; without code there is none. -/
def MethodSource.Assembles (m : MethodSource pool) (program : Program pool 0) : Prop :=
  match m.code? with
  | none => program = .done
  | some content => ∃ body, content = .code body ∧ body.code = program.bytes

structure AssembledMethod (pool : ConstantPool) where
  source : MethodSource pool
  program : Program pool 0
  assembles : source.Assembles program

structure AssembledClass where
  source : ClassSource
  methods : List (AssembledMethod source.pool)
  same : methods.map AssembledMethod.source = source.methods.val

/-- The finding for a use of a member in a method. -/
def AssembledClass.finding (c : AssembledClass) (m : AssembledMethod c.source.pool)
    (r : MemberReference) : Finding :=
  let owner := c.source.name.name.dotted
  { callerClass := owner
    caller := owner ++ "." ++ m.source.name.text ++ m.source.descriptor.text
    callee := r.owner.dotted ++ "." ++ r.name ++ r.descriptor }

namespace AssembledClass

/-- Uses of members whose owner signature starts with the stem. -/
def matching (c : AssembledClass) (stem : Text) (m : AssembledMethod c.source.pool)
    (references : List MemberReference) : List Finding :=
  (references.filter fun r => stem <+: r.ownerSignature).map (c.finding m)

def calls (c : AssembledClass) (stem : Text) : List Finding :=
  c.methods.flatMap fun m => c.matching stem m m.program.calls

/-- The calls of each method before its field accesses. -/
def callsAndFields (c : AssembledClass) (stem : Text) : List Finding :=
  c.methods.flatMap fun m =>
    c.matching stem m m.program.calls ++ c.matching stem m m.program.fields

end AssembledClass

/-- An assembled class under a name in an archive. -/
structure AssembledEntry where
  name : Text
  reading : Option Text
  content : AssembledClass

def AssembledEntry.entry (e : AssembledEntry) : Entry :=
  { name := e.name, data := e.content.source.bytes, reading := e.reading }

-- ---------------------------------------------------------------------------
-- Methods
-- ---------------------------------------------------------------------------

theorem AssembledMethod.instructions_method (m : AssembledMethod pool) :
    m.source.method.instructions pool = .ok m.program.instructions := by
  have hassembles := m.assembles
  rw [MethodSource.Assembles] at hassembles
  rw [Method.instructions, MethodSource.method]
  cases hcode : m.source.code? with
  | none =>
    rw [hcode] at hassembles
    simp only at hassembles
    rw [hassembles]
    rfl
  | some content =>
    rw [hcode] at hassembles
    obtain ⟨body, rfl, hbytes⟩ := hassembles
    exact decodeCode_eq_ok.mpr ⟨m.program, hbytes.symm, rfl⟩

namespace AssembledClass

theorem ofReference_eq_finding (c : AssembledClass) (m : AssembledMethod c.source.pool)
    (r : MemberReference) :
    Finding.ofReference c.source.file.dottedName m.source.method r = c.finding m r := by
  simp only [Finding.ofReference, finding, Method.identity, Method.signature, ← List.append_assoc]
  rfl

theorem references_eq_matching (c : AssembledClass) (stem : Text)
    (m : AssembledMethod c.source.pool)
    (h : m.program.instructions.filterMap select = references) :
    Tool.references select stem c.source.file.dottedName m.source.method m.program.instructions =
      c.matching stem m references := by
  rw [Tool.references, h, matching, ← List.filterMap_eq_map, List.filterMap_filter]
  congr
  funext r
  simp only [ofReference_eq_finding, Text.startsWith, List.isPrefixOf_iff_prefix, decide_eq_true_iff]
  rfl

/-- What tools find in the assembled methods. -/
def found (c : AssembledClass) (tools : List Tool) : List Finding :=
  c.methods.flatMap fun m => tools.flatMap fun tool =>
    tool.find c.source.file.dottedName m.source.method m.program.instructions

theorem found_calls (c : AssembledClass) (stem : Text) :
    c.found [.calls stem] = c.calls stem := by
  refine congrArg (List.flatMap · c.methods) (funext fun m => ?_)
  have hcalls := m.program.filterMap_instructions Line.call?_instruction
  rw [List.flatMap_singleton]
  exact c.references_eq_matching stem m hcalls

theorem found_callsAndFields (c : AssembledClass) (stem : Text) :
    c.found [.calls stem, .fields stem] = c.callsAndFields stem := by
  refine congrArg (List.flatMap · c.methods) (funext fun m => ?_)
  have hcalls := m.program.filterMap_instructions Line.call?_instruction
  have hfields := m.program.filterMap_instructions Line.field?_instruction
  rw [List.flatMap_cons, List.flatMap_singleton]
  exact congr (congrArg _ (c.references_eq_matching stem m hcalls))
    (c.references_eq_matching stem m hfields)

-- ---------------------------------------------------------------------------
-- Classes
-- ---------------------------------------------------------------------------

theorem decodeMethod_method (c : AssembledClass) (m : AssembledMethod c.source.pool) :
    decodeMethod c.source.file m.source.method = .ok m.program.instructions := by
  have hinstructions : m.source.method.instructions c.source.file.pool =
      .ok m.program.instructions := m.instructions_method
  rw [decodeMethod, hinstructions]
  rfl

theorem methods_file (c : AssembledClass) :
    c.source.file.methods = c.methods.map fun m => m.source.method := by
  have hsame := congrArg (List.map MethodSource.method) c.same
  rw [List.map_map] at hsame
  exact hsame.symm

end AssembledClass

-- ---------------------------------------------------------------------------
-- Entries
-- ---------------------------------------------------------------------------

namespace AssembledEntry

theorem decodeEntry_entry (e : AssembledEntry) :
    decodeEntry e.entry.name e.entry.data = .ok e.content.source.file := by
  have hdecode := ClassFile.decode_of_reads (ClassFile.reads_decodeBody e.content.source) []
  rw [List.append_nil] at hdecode
  rw [decodeEntry]
  exact congrArg _ hdecode

theorem isClass_entry (e : AssembledEntry) : e.entry.isClass = true := by
  rw [Entry.isClass, e.decodeEntry_entry]
  rfl

theorem failures_entry (e : AssembledEntry) : e.entry.failures = [] := by
  rw [Entry.failures, e.decodeEntry_entry]
  refine List.flatMap_eq_nil_iff.mpr fun method hmethod => ?_
  rw [e.content.methods_file] at hmethod
  obtain ⟨m, -, rfl⟩ := List.mem_map.mp hmethod
  rw [Method.failures, e.content.decodeMethod_method]

theorem findings_entry (tools : List Tool) (e : AssembledEntry) :
    e.entry.findings tools = e.content.found tools := by
  rw [Entry.findings, e.decodeEntry_entry]
  simp only [e.content.methods_file, List.flatMap_map, AssembledClass.found]
  refine congrArg (List.flatMap · e.content.methods) (funext fun m => ?_)
  rw [Method.findings, e.content.decodeMethod_method]

end AssembledEntry

namespace Progress

def fresh (d : Diagnostics) : Progress := { results := .empty .ordered, diagnostics := d }

/-- So many classes were decoded, nothing failed that had not failed before, and the results are the
given findings, those of each class in the given order. -/
structure Reports (after : Progress) (before : Diagnostics) (count : Nat) (found : List Finding) :
    Prop where
  decoded : after.decoded = count
  failures : after.diagnostics.failures = before.failures
  all : after.results.toList.Perm found
  inOrder : ∀ owner, Finding.ofClass owner after.results.toList = Finding.ofClass owner found

theorem reports_entries (tools : List Tool) (d : Diagnostics) (es : List AssembledEntry) :
    ((fresh d).entries tools (es.map AssembledEntry.entry)).Reports d es.length
      (es.flatMap fun e => e.content.found tools) := by
  have hfailures := failures_entries tools (fresh d) (es.map AssembledEntry.entry)
  have hresults := results_entries tools (fresh d) (es.map AssembledEntry.entry)
  simp only [List.flatMap_map, AssembledEntry.failures_entry, AssembledEntry.findings_entry]
    at hfailures hresults
  obtain ⟨groups, hextend, hcollects⟩ := Aggregate.extend_collects Group.collects_nil
    (es.flatMap fun e => e.content.found tools)
  have hresults := hresults.trans hextend
  refine ⟨?_, Array.toList_inj.mp ?_, ?_, ?_⟩
  · rw [decoded_entries, List.countP_map, List.countP_eq_length.mpr fun e _ => e.isClass_entry]
    exact Nat.zero_add _
  · rw [hfailures, List.flatMap_eq_nil_iff.mpr fun _ _ => rfl]
    exact List.append_nil _
  · rw [hresults]
    exact hcollects.perm
  · rw [hresults]
    exact hcollects.inOrder

/-- Scanning assembled classes reports the matching calls, all of them and nothing else; with both
tools the matching field accesses of a method come after its calls. -/
theorem entries_assembled (stem : Text) (d : Diagnostics) (es : List AssembledEntry) :
    ((fresh d).entries [.calls stem] (es.map AssembledEntry.entry)).Reports d es.length
        (es.flatMap fun e => e.content.calls stem) ∧
      ((fresh d).entries [.calls stem, .fields stem] (es.map AssembledEntry.entry)).Reports d
        es.length (es.flatMap fun e => e.content.callsAndFields stem) := by
  have hcalls := reports_entries [.calls stem] d es
  have hboth := reports_entries [.calls stem, .fields stem] d es
  simp only [AssembledClass.found_calls] at hcalls
  simp only [AssembledClass.found_callsAndFields] at hboth
  exact ⟨hcalls, hboth⟩

end Progress

/-- A class whose only method calls itself and returns. -/
def AssembledClass.selfCaller : AssembledClass where
  source := ClassSource.selfCaller
  methods := [{
    source := ClassSource.selfCallerMethod
    program := .line (.call Opcode.invokeStatic 7 ⟨"A", "f", "()V"⟩ rfl rfl)
      (.line (.plain ⟨0xB1, by decide⟩ [] rfl rfl) .done)
    assembles := ⟨_, rfl, rfl⟩ }]
  same := rfl

theorem Progress.entries_assembled_selfCaller :
    ((fresh {}).entries [.calls "LA;"]
      [{ name := "A.class", data := ClassSource.selfCaller.bytes }]).results.toList =
        [⟨"A", "A.f()V", "A.f()V"⟩] := by
  have h := (entries_assembled "LA;" {} [⟨"A.class", none, .selfCaller⟩]).1
  have hcalls : [AssembledEntry.mk "A.class" none .selfCaller].flatMap
      (fun e => e.content.calls "LA;") = [⟨"A", "A.f()V", "A.f()V"⟩] := by decide +kernel
  exact List.perm_singleton.mp (hcalls ▸ h.all)

end Callsite
