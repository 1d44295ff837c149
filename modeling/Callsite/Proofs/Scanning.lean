import Callsite.Scan
import Callsite.Proofs.Grouping

/-!
# What a scan adds

Every method adds its findings or its failure, and every entry of an archive what its methods add or
its own failure. A scan adds them one after the other to what was there before.
-/

namespace Callsite

theorem Tool.references_eq (select : Instruction → Option MemberReference) (stem owner : Text)
    (m : Method) (instructions : List Instruction) :
    references select stem owner m instructions =
      ((instructions.filterMap select).filter (·.ownerSignature.startsWith stem)).map
        (Finding.ofReference owner m) := by
  rw [references, ← List.filterMap_eq_map, List.filterMap_filter]
  rfl

theorem Tool.mem_references : f ∈ references select stem owner m instructions ↔
    ∃ r ∈ instructions.filterMap select, r.ownerSignature.startsWith stem = true ∧
      Finding.ofReference owner m r = f := by
  simp only [references_eq, List.mem_map, List.mem_filter, and_assoc]

namespace Method

/-- What the tools find in a method; nothing if it cannot be decoded. -/
def findings (tools : List Tool) (file : ClassFile) (m : Method) : List Finding :=
  match decodeMethod file m with
  | .ok instructions => tools.flatMap fun tool => tool.find file.dottedName m instructions
  | .error _ => []

/-- The failure of a method that cannot be decoded. -/
def failures (file : ClassFile) (m : Method) : List Failure :=
  match decodeMethod file m with
  | .ok _ => []
  | .error failure => [failure]

end Method

/-- The failure of an entry that is no class, or those of the methods of the class. -/
def Entry.failures (e : Entry) : List Failure :=
  match decodeEntry e.name e.data with
  | .ok file => file.methods.flatMap (Method.failures file)
  | .error failure => [failure]

/-- What the tools find in the class that an entry holds, if it holds one. -/
def Entry.findings (tools : List Tool) (e : Entry) : List Finding :=
  match decodeEntry e.name e.data with
  | .ok file => file.methods.flatMap (Method.findings tools file)
  | .error _ => []

def Entry.isClass (e : Entry) : Bool := (decodeEntry e.name e.data).isOk

theorem Diagnostics.failures_record (d : Diagnostics) (failure : Failure) :
    (d.record failure).failures.toList = d.failures.toList ++ [failure] := Array.toList_push

-- ---------------------------------------------------------------------------
-- One class
-- ---------------------------------------------------------------------------

namespace Scan

theorem method_adds (tools : List Tool) (file : ClassFile) (found : Array Finding)
    (d : Diagnostics) (m : Method) :
    (method tools file (found, d) m).1.toList = found.toList ++ m.findings tools file ∧
      (method tools file (found, d) m).2.failures.toList =
        d.failures.toList ++ m.failures file := by
  rw [method, Method.findings, Method.failures]
  cases decodeMethod file m with
  | ok instructions => simp
  | error failure => exact ⟨(List.append_nil _).symm, d.failures_record failure⟩

theorem foldl_method_adds (tools : List Tool) (file : ClassFile) (methods : List Method)
    (found : Array Finding) (d : Diagnostics) :
    (methods.foldl (method tools file) (found, d)).1.toList =
        found.toList ++ methods.flatMap (Method.findings tools file) ∧
      (methods.foldl (method tools file) (found, d)).2.failures.toList =
        d.failures.toList ++ methods.flatMap (Method.failures file) := by
  induction methods generalizing found d with
  | nil => simp
  | cons m rest ih =>
    obtain ⟨hfound, hfailures⟩ := method_adds tools file found d m
    obtain ⟨hrest, hrestFailures⟩ :=
      ih (method tools file (found, d) m).1 (method tools file (found, d) m).2
    rw [hfound, List.append_assoc] at hrest
    rw [hfailures, List.append_assoc] at hrestFailures
    exact ⟨hrest, hrestFailures⟩

/-- A scanned class adds what its methods add, in the order of the methods. -/
theorem classFile_adds (tools : List Tool) (file : ClassFile) (d : Diagnostics) :
    (classFile tools file d).1 = file.methods.flatMap (Method.findings tools file) ∧
      (classFile tools file d).2.failures.toList =
        d.failures.toList ++ file.methods.flatMap (Method.failures file) :=
  foldl_method_adds tools file file.methods #[] d

end Scan

-- ---------------------------------------------------------------------------
-- Many classes
-- ---------------------------------------------------------------------------

namespace Progress

theorem failures_entry (tools : List Tool) (p : Progress) (e : Entry) :
    (p.entry tools e).diagnostics.failures.toList =
      p.diagnostics.failures.toList ++ e.failures := by
  rw [entry, Entry.failures]
  -- the note about the reading is no failure
  cases e.reading with
  | none =>
    cases decodeEntry e.name e.data with
    | error failure => exact p.diagnostics.failures_record failure
    | ok file => exact (Scan.classFile_adds tools file p.diagnostics).2
  | some message =>
    cases decodeEntry e.name e.data with
    | error failure => exact (p.diagnostics.log .debug message).failures_record failure
    | ok file => exact (Scan.classFile_adds tools file (p.diagnostics.log .debug message)).2

theorem failures_entries (tools : List Tool) (p : Progress) (es : List Entry) :
    (p.entries tools es).diagnostics.failures.toList =
      p.diagnostics.failures.toList ++ es.flatMap Entry.failures := by
  induction es generalizing p with
  | nil => exact (List.append_nil _).symm
  | cons e rest ih =>
    have hrest := ih (p.entry tools e)
    rw [failures_entry, List.append_assoc] at hrest
    exact hrest

theorem decoded_entry (tools : List Tool) (p : Progress) (e : Entry) :
    (p.entry tools e).decoded = p.decoded + if e.isClass then 1 else 0 := by
  rw [entry, Entry.isClass]
  cases e.reading <;> cases decodeEntry e.name e.data <;> rfl

theorem decoded_entries (tools : List Tool) (p : Progress) (es : List Entry) :
    (p.entries tools es).decoded = p.decoded + es.countP Entry.isClass := by
  induction es generalizing p with
  | nil => rfl
  | cons e rest ih =>
    have hrest := ih (p.entry tools e)
    rw [decoded_entry, Nat.add_assoc, Nat.add_comm (ite ..)] at hrest
    rw [List.countP_cons]
    exact hrest

theorem results_entry (tools : List Tool) (p : Progress) (e : Entry) :
    (p.entry tools e).results = p.results.extend (e.findings tools) := by
  rw [entry, Entry.findings]
  cases e.reading with
  | none =>
    cases decodeEntry e.name e.data with
    | error failure => rfl
    | ok file => exact congrArg p.results.extend (Scan.classFile_adds tools file _).1
  | some message =>
    cases decodeEntry e.name e.data with
    | error failure => rfl
    | ok file => exact congrArg p.results.extend (Scan.classFile_adds tools file _).1

theorem results_entries (tools : List Tool) (p : Progress) (es : List Entry) :
    (p.entries tools es).results = p.results.extend (es.flatMap (Entry.findings tools)) := by
  induction es generalizing p with
  | nil => rfl
  | cons e rest ih =>
    have hrest := ih (p.entry tools e)
    rw [results_entry, ← Aggregate.extend_append] at hrest
    exact hrest

/-- A scan of classes given by their data adds the failures of methods only. -/
theorem failures_classes (tools : List Tool) (p : Progress) (classes : List (List UInt8)) :
    ∃ files : List ClassFile, (p.classes tools classes).1.diagnostics.failures.toList =
      p.diagnostics.failures.toList ++
        files.flatMap fun file => file.methods.flatMap (Method.failures file) := by
  induction classes generalizing p with
  | nil => exact ⟨[], (List.append_nil _).symm⟩
  | cons data rest ih =>
    rw [Progress.classes]
    cases ClassFile.decode data with
    | error fault => exact ⟨[], (List.append_nil _).symm⟩
    | ok file =>
      obtain ⟨files, hfiles⟩ := ih (p.classFile tools file)
      refine ⟨file :: files, ?_⟩
      have hfile : (p.classFile tools file).diagnostics.failures.toList = _ :=
        (Scan.classFile_adds tools file p.diagnostics).2
      rw [hfile, List.append_assoc] at hfiles
      exact hfiles

end Progress

end Callsite
