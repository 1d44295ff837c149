import Callsite.Proofs.Aggregation
import Callsite.Proofs.Scanning

/-!
# Accounts of a scan

A tally says what units add to a scan, one after the other and each once. Scanning entries in any state
adds what their tally says, and nothing that was there before is lost.
-/

namespace Callsite

/-- Each method adds what the tools find in its instructions, or the failure to decode them. -/
inductive MethodTally (tools : List Tool) (file : ClassFile) :
    List Method → List Failure → List Finding → Prop
  | nil : MethodTally tools file [] [] []
  | scanned (decodes : m.instructions file.pool = .ok instructions)
      (rest : MethodTally tools file ms failures findings) :
      MethodTally tools file (m :: ms) failures
        ((tools.flatMap fun tool => tool.find file.dottedName m instructions) ++ findings)
  | skipped (fails : m.instructions file.pool = .error fault)
      (rest : MethodTally tools file ms failures findings) :
      MethodTally tools file (m :: ms)
        ({ scope := "method", unit := m.identity file.dottedName, kind := fault.kind.label,
           message := fault.message } :: failures) findings

/-- Each entry adds a decoded class with what its methods add, or the failure to decode it. -/
inductive EntryTally (tools : List Tool) :
    List Entry → Nat → List Failure → List Finding → Prop
  | nil : EntryTally tools [] 0 [] []
  | scanned (decodes : ClassFile.decode e.data = .ok file)
      (methods : MethodTally tools file file.methods own found)
      (rest : EntryTally tools es decoded failures findings) :
      EntryTally tools (e :: es) (decoded + 1) (own ++ failures) (found ++ findings)
  | skipped (fails : ClassFile.decode e.data = .error fault)
      (rest : EntryTally tools es decoded failures findings) :
      EntryTally tools (e :: es) decoded
        ({ scope := "class", unit := e.name, kind := fault.kind.label,
           message := fault.message } :: failures) findings

theorem methodTally (tools : List Tool) (file : ClassFile) (ms : List Method) :
    MethodTally tools file ms (ms.flatMap (Method.failures file))
      (ms.flatMap (Method.findings tools file)) := by
  induction ms with
  | nil => exact .nil
  | cons m ms ih =>
    rw [List.flatMap_cons, List.flatMap_cons, Method.failures, Method.findings, decodeMethod]
    cases h : m.instructions file.pool with
    | ok instructions => exact .scanned h ih
    | error fault => exact .skipped h ih

theorem entryTally (tools : List Tool) (es : List Entry) :
    EntryTally tools es (es.countP Entry.isClass) (es.flatMap Entry.failures)
      (es.flatMap (Entry.findings tools)) := by
  induction es with
  | nil => exact .nil
  | cons e es ih =>
    rw [List.countP_cons, List.flatMap_cons, List.flatMap_cons, Entry.isClass, Entry.failures,
      Entry.findings, decodeEntry]
    cases h : ClassFile.decode e.data with
    | ok file => exact .scanned h (methodTally tools file file.methods) ih
    | error fault => exact .skipped h ih

theorem Failure.methodScope_ne : Text.ofString "method" ≠ classScope := by decide

theorem MethodTally.count (h : MethodTally tools file ms failures findings) :
    failures.countP (·.scope = Failure.classScope) = 0 := by
  induction h with
  | nil => rfl
  | scanned decodes rest ih => exact ih
  | skipped fails rest ih => simp [Failure.methodScope_ne, ih]

/-- Every entry is counted as a class or as a failure. -/
theorem EntryTally.count (h : EntryTally tools es decoded failures findings) :
    decoded + failures.countP (·.scope = Failure.classScope) = es.length := by
  induction h with
  | nil => rfl
  | scanned decodes methods rest ih =>
    rw [List.countP_append, methods.count, List.length_cons]
    omega
  | skipped fails rest ih =>
    simp only [List.countP_cons, Failure.classScope, decide_true, if_true, List.length_cons] at ih ⊢
    omega

/-- A scan of entries counts the decoded classes, records the failures and hands over the findings of
their tally, in its order, and keeps what it had. -/
theorem Progress.entries_accounted (tools : List Tool) (p : Progress) (es : List Entry) :
    ∃ decoded failures findings, EntryTally tools es decoded failures findings ∧
      decoded + failures.countP (·.scope = Failure.classScope) = es.length ∧
      (p.entries tools es).decoded = p.decoded + decoded ∧
      (p.entries tools es).diagnostics.failures.toList =
        p.diagnostics.failures.toList ++ failures ∧
      (p.entries tools es).results = p.results.extend findings ∧
      p.results.toList.Sublist (p.entries tools es).results.toList ∧
      ∀ f, f ∈ (p.entries tools es).results.toList ↔ f ∈ p.results.toList ∨ f ∈ findings := by
  have htally := entryTally tools es
  have hresults := results_entries tools p es
  refine ⟨_, _, _, htally, htally.count, decoded_entries tools p es, failures_entries tools p es,
    hresults, ?_, fun f => ?_⟩
  · rw [hresults]
    exact p.results.sublist_extend _
  · rw [hresults, Aggregate.mem_extend]

end Callsite
