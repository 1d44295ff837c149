import Callsite.Proofs.Narrowing
import Mathlib.Data.List.Nodup

/-!
# Results with the same caller and callee

In unordered mode results are kept once that agree in caller class, caller and callee. A caller is
written as the name of its class, a dot and the signature of the method. Where no signature has a dot
itself, the last dot of a caller ends the name of its class, and results are kept once that agree in
caller and callee (`scan_unordered_pairs`). Class files in which a signature has a dot can have two
methods that are written alike, and results of both are kept (`scan_unordered_repeats`).
-/

namespace Callsite

-- ---------------------------------------------------------------------------
-- Callers
-- ---------------------------------------------------------------------------

theorem Text.eq_nil_of_cons_eq {last between rest : Text} (h : c ∉ last)
    (heq : c :: last = between ++ c :: rest) : between = [] := by
  cases between with
  | nil => rfl
  | cons x between =>
    obtain ⟨-, rfl⟩ := List.cons.inj heq
    simp at h

/-- What stands before the last separator is determined. -/
theorem Text.eq_of_append_cons {t t' last last' : Text} (h : c ∉ last) (h' : c ∉ last')
    (heq : t ++ c :: last = t' ++ c :: last') : t = t' := by
  rcases List.append_eq_append_iff.mp heq with ⟨between, rfl, hlast⟩ | ⟨between, rfl, hlast⟩
  · simp [eq_nil_of_cons_eq h hlast]
  · simp [eq_nil_of_cons_eq h' hlast]

/-- The name and the descriptor have no dot in them. -/
def Method.Undotted (m : Method) : Prop := CodePoint.ofChar '.' ∉ m.signature

theorem Method.owner_eq_of_identity {m m' : Method} (h : m.Undotted) (h' : m'.Undotted)
    (heq : m.identity owner = m'.identity owner') : owner = owner' := by
  have hdot : Text.ofString "." = [CodePoint.ofChar '.'] := rfl
  simp only [identity, hdot, List.append_assoc, List.singleton_append] at heq
  exact Text.eq_of_append_cons h h' heq

/-- The findings of the tool name the method in which it looks as their caller. -/
def Tool.NamesCaller (tool : Tool) : Prop :=
  ∀ owner m instructions, ∀ f ∈ tool.find owner m instructions,
    f.callerClass = owner ∧ f.caller = m.identity owner

theorem Tool.namesCaller_references (name : String) (select : Instruction → Option MemberReference)
    (stem : Text) : NamesCaller { name, find := references select stem } := by
  intro owner m instructions f hf
  obtain ⟨reference, rfl⟩ := exists_of_mem_references hf
  exact ⟨rfl, rfl⟩

namespace Entry

/-- No method of the class has a dot in its name or its descriptor. -/
def Undotted (e : Entry) : Prop :=
  ∀ file, ClassFile.decode e.data = .ok file → ∀ m ∈ file.methods, m.Undotted

theorem eq_of_pair (htools : ∀ tool ∈ tools, tool.NamesCaller) (he : Undotted e) (he' : Undotted e')
    (hf : f ∈ findings tools e) (hg : g ∈ findings tools e')
    (hpair : (f.caller, f.callee) = (g.caller, g.callee)) : f = g := by
  obtain ⟨file, hfile, m, hm, instructions, -, tool, htool, hfound⟩ := exists_of_mem_findings hf
  obtain ⟨file', hfile', m', hm', instructions', -, tool', htool', hfound'⟩ := exists_of_mem_findings hg
  obtain ⟨hclass, hcaller⟩ := htools tool htool _ _ _ f hfound
  obtain ⟨hclass', hcaller'⟩ := htools tool' htool' _ _ _ g hfound'
  obtain ⟨hsame, hcallee⟩ := Prod.mk.inj hpair
  have howner : file.dottedName = file'.dottedName :=
    Method.owner_eq_of_identity (he file hfile m hm) (he' file' hfile' m' hm')
      (by rw [← hcaller, ← hcaller', hsame])
  have hclasses : f.callerClass = g.callerClass := by rw [hclass, hclass', howner]
  cases f
  cases g
  simp only [Finding.mk.injEq]
  exact ⟨hclasses, hsame, hcallee⟩

end Entry

-- ---------------------------------------------------------------------------
-- Scans
-- ---------------------------------------------------------------------------

namespace Progress

theorem mem_scan (tools : List Tool) (mode : Mode) (d : Diagnostics) (es : List Entry) :
    f ∈ (scan tools mode d es).results.toList ↔ ∃ e ∈ es, f ∈ e.findings tools := by
  rw [results_scan, Aggregate.mem_extend_empty, List.mem_flatMap]

/-- Unordered results hold every pair of caller and callee that ordered ones hold, and no result
twice. They hold no pair twice either, if the tools name the methods in which they look and no method
has a dot in its name or descriptor. -/
theorem scan_unordered_pairs (tools : List Tool) (d : Diagnostics) (es : List Entry) :
    (∀ f ∈ (scan tools .ordered d es).results.toList,
      ∃ g ∈ (scan tools .unordered d es).results.toList, g.caller = f.caller ∧ g.callee = f.callee) ∧
    (scan tools .unordered d es).results.toList.Nodup ∧
    ((∀ tool ∈ tools, tool.NamesCaller) → (∀ e ∈ es, e.Undotted) →
      ((scan tools .unordered d es).results.toList.map fun f => (f.caller, f.callee)).Nodup) := by
  refine ⟨fun f hf => ⟨f, ?_, rfl, rfl⟩, nodup_scan .., fun htools hes => ?_⟩
  · rw [mem_scan] at hf ⊢
    exact hf
  · refine (nodup_scan tools d es).map_on fun f hf g hg => ?_
    obtain ⟨e, he, hfound⟩ := (mem_scan ..).mp hf
    obtain ⟨e', he', hfound'⟩ := (mem_scan ..).mp hg
    exact Entry.eq_of_pair htools (hes e he) (hes e' he') hfound hfound'

/-- Two classes have a method of one name, and one class comes twice. -/
theorem scan_unordered_pairs_calling :
    let es := [Entry.calling "a" "f" "x", .calling "a/b" "f" "x", .calling "a" "f" "x"]
    ((scan [.calls "Lx", .fields "Lx"] .unordered {} es).results.toList.map
        fun f => (f.caller, f.callee)).Nodup ∧
      (scan [.calls "Lx", .fields "Lx"] .unordered {} es).results.size = 2 := by
  intro es
  have htools : ∀ tool ∈ [Tool.calls "Lx", .fields "Lx"], tool.NamesCaller := by
    simp [Tool.calls, Tool.fields, Tool.namesCaller_references]
  have hsignatures : ∀ e ∈ es, (ClassFile.decode e.data).toOption.map
      (fun file => file.methods.map Method.signature) = some [("f()V" : Text)] := by decide +kernel
  have hes : ∀ e ∈ es, e.Undotted := by
    intro e he file hfile m hm
    have hmethods : file.methods.map Method.signature = [("f()V" : Text)] := by
      simpa [hfile, Except.toOption] using hsignatures e he
    have hmem : m.signature ∈ [("f()V" : Text)] := hmethods ▸ List.mem_map_of_mem hm
    rw [Method.Undotted, List.mem_singleton.mp hmem]
    decide
  exact ⟨(scan_unordered_pairs _ {} es).2.2 htools hes, by decide +kernel⟩

/-- The method `b.f` of the class `a` and the method `f` of the class `a.b` are written alike. -/
theorem scan_unordered_repeats :
    let es := [Entry.calling "a" "b.f" "x", .calling "a/b" "f" "x"]
    (scan [.calls "Lx"] .unordered {} es).results.toList =
        [⟨"a", "a.b.f()V", "x.g()V"⟩, ⟨"a.b", "a.b.f()V", "x.g()V"⟩] ∧
      ¬((scan [.calls "Lx"] .unordered {} es).results.toList.map
        fun f => (f.caller, f.callee)).Nodup := by
  intro es
  have hresults : (scan [.calls "Lx"] .unordered {} es).results.toList =
      [⟨"a", "a.b.f()V", "x.g()V"⟩, ⟨"a.b", "a.b.f()V", "x.g()V"⟩] := by decide +kernel
  refine ⟨hresults, ?_⟩
  rw [hresults]
  simp

end Progress

end Callsite
