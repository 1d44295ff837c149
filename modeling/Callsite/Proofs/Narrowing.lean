import Callsite.Proofs.EntryOrder
import Mathlib.Data.List.Flatten
import Mathlib.Data.List.Perm.Basic

/-!
# More tools and wider stems

Tools only look at what was decoded: they change neither what a scan counts nor what it records. Where
each tool finds less, the scan keeps less and the rest in its order (`Within`); this holds for a
narrower stem and for some of the tools alone.
-/

namespace Callsite

-- ---------------------------------------------------------------------------
-- Tools that find less
-- ---------------------------------------------------------------------------

/-- In every method the first tools find some of what the others find, in the same order. -/
def Tool.Within (tools others : List Tool) : Prop :=
  ∀ owner m instructions, (tools.flatMap fun tool => tool.find owner m instructions).Sublist
    (others.flatMap fun tool => tool.find owner m instructions)

namespace Tool

theorem within_of_sublist (h : tools.Sublist others) : Within tools others :=
  fun _ _ _ => h.flatMap _

theorem startsWith_of_prefix {t : Text} (h : p <+: q) (ht : t.startsWith q) : t.startsWith p := by
  simp only [Text.startsWith, List.isPrefixOf_iff_prefix] at ht ⊢
  exact h.trans ht

/-- A longer stem picks out fewer references. -/
theorem within_references (name : String) (select : Instruction → Option MemberReference)
    (h : p <+: q) :
    Within [{ name, find := references select q }] [{ name, find := references select p }] := by
  intro owner m instructions
  simp only [List.flatMap_singleton, references_eq]
  exact (List.monotone_filter_right _ fun r => startsWith_of_prefix h).map _

end Tool

theorem Method.findings_sublist (h : Tool.Within tools others) (file : ClassFile) (m : Method) :
    (m.findings tools file).Sublist (m.findings others file) := by
  rw [findings, findings]
  cases decodeMethod file m with
  | ok instructions => exact h file.dottedName m instructions
  | error failure => exact .slnil

theorem Entry.findings_sublist (h : Tool.Within tools others) (e : Entry) :
    (e.findings tools).Sublist (e.findings others) := by
  rw [findings, findings]
  cases decodeEntry e.name e.data with
  | ok file => exact .flatMap_right _ fun m _ => m.findings_sublist h file
  | error failure => exact .slnil

-- ---------------------------------------------------------------------------
-- Tools together
-- ---------------------------------------------------------------------------

theorem Method.findings_append (tools others : List Tool) (file : ClassFile) (m : Method) :
    m.findings (tools ++ others) file = m.findings tools file ++ m.findings others file := by
  rw [findings, findings, findings]
  cases decodeMethod file m with
  | ok instructions => exact List.flatMap_append
  | error failure => rfl

/-- Tools take turns in each method, so what they find together comes in another order. -/
theorem Entry.findings_append_perm (tools others : List Tool) (e : Entry) :
    (e.findings tools ++ e.findings others).Perm (e.findings (tools ++ others)) := by
  rw [findings, findings, findings]
  cases decodeEntry e.name e.data with
  | ok file =>
    simp only [funext (Method.findings_append tools others file)]
    exact List.flatMap_append_perm ..
  | error failure => exact .nil

theorem Entry.length_flatMap_findings (tools others : List Tool) (es : List Entry) :
    (es.flatMap (findings (tools ++ others))).length =
      (es.flatMap (findings tools)).length + (es.flatMap (findings others)).length := by
  rw [← List.length_append]
  refine ((List.flatMap_append_perm es _ _).trans ?_).length_eq.symm
  exact .flatMap_left _ fun e _ => e.findings_append_perm tools others

-- ---------------------------------------------------------------------------
-- Scans
-- ---------------------------------------------------------------------------

namespace Progress

theorem results_sublist (h : Tool.Within tools others) (d : Diagnostics) (es : List Entry) :
    (scan tools .ordered d es).results.toList.Sublist (scan others .ordered d es).results.toList := by
  rw [results_scan, results_scan]
  exact Aggregate.extend_sublist (.flatMap_right es fun e _ => e.findings_sublist h)

theorem results_subset (h : Tool.Within tools others) (d : Diagnostics) (es : List Entry) :
    (scan tools .unordered d es).results.toList ⊆ (scan others .unordered d es).results.toList := by
  rw [results_scan, results_scan]
  exact Aggregate.extend_subset _ (List.Sublist.flatMap_right es fun e _ => e.findings_sublist h).subset

theorem length_results_append (tools others : List Tool) (d : Diagnostics) (es : List Entry) :
    (scan (tools ++ others) .ordered d es).results.toList.length =
      (scan tools .ordered d es).results.toList.length +
        (scan others .ordered d es).results.toList.length := by
  simp only [results_scan, Aggregate.length_ordered, Entry.length_flatMap_findings]

/-- The tools make no difference to what a scan counts and records. A longer stem gives some of the
results, in the same order, and so does one of two tools alone; there are as many results of both as of
the two alone. -/
theorem scan_narrowed (d : Diagnostics) (es : List Entry) :
    (∀ tools others mode mode', (scan tools mode d es).decoded = (scan others mode' d es).decoded ∧
      (scan tools mode d es).diagnostics.failures = (scan others mode' d es).diagnostics.failures) ∧
    (∀ p q : Text, p <+: q → ∀ tool ∈ [Tool.calls, Tool.fields],
      (scan [tool q] .ordered d es).results.toList.Sublist
        (scan [tool p] .ordered d es).results.toList ∧
      (scan [tool q] .unordered d es).results.toList ⊆
        (scan [tool p] .unordered d es).results.toList) ∧
    ∀ first second : Tool,
      (scan [first] .ordered d es).results.toList.Sublist
        (scan [first, second] .ordered d es).results.toList ∧
      (scan [second] .ordered d es).results.toList.Sublist
        (scan [first, second] .ordered d es).results.toList ∧
      (scan [first, second] .ordered d es).results.toList.length =
        (scan [first] .ordered d es).results.toList.length +
          (scan [second] .ordered d es).results.toList.length := by
  refine ⟨fun tools others mode mode' => ⟨?_, ?_⟩, fun p q h tool htool => ?_, fun first second => ?_⟩
  · rw [scan, scan, decoded_entries, decoded_entries]
  · apply Array.toList_inj.mp
    rw [scan, scan, failures_entries, failures_entries]
  · have hwithin : Tool.Within [tool q] [tool p] := by
      simp only [List.mem_cons, List.not_mem_nil, or_false] at htool
      rcases htool with rfl | rfl
      · exact Tool.within_references "calls" Instruction.call? h
      · exact Tool.within_references "fields" Instruction.field? h
    exact ⟨results_sublist hwithin d es, results_subset hwithin d es⟩
  · refine ⟨results_sublist (Tool.within_of_sublist ?_) d es,
      results_sublist (Tool.within_of_sublist ?_) d es, length_results_append [first] [second] d es⟩
    · simp
    · simp

end Progress

/-- With a stem that ends a package, the group of a class that calls a sibling package is gone. -/
theorem Progress.scan_narrowed_sibling :
    let es := [Entry.calling "b" "f" "acme/A", .calling "a" "f" "acmeplus/B"]
    (scan [.calls "Lacme/"] .ordered {} es).results.toList.Sublist
        (scan [.calls "Lacme"] .ordered {} es).results.toList ∧
      (scan [.calls "Lacme/"] .ordered {} es).results.toList = [⟨"b", "b.f()V", "acme.A.g()V"⟩] ∧
      (scan [.calls "Lacme"] .ordered {} es).results.toList =
        [⟨"a", "a.f()V", "acmeplus.B.g()V"⟩, ⟨"b", "b.f()V", "acme.A.g()V"⟩] := by
  intro es
  refine ⟨?_, by decide +kernel, by decide +kernel⟩
  exact ((scan_narrowed {} es).2.1 "Lacme" "Lacme/" (by decide) Tool.calls List.mem_cons_self).1

end Callsite
