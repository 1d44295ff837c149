import Callsite.Proofs.Accounts
import Callsite.Proofs.ClassEncoding
import Mathlib.Data.List.FinRange

/-!
# The order of entries

The order in which the entries of an archive come changes neither what a scan counts nor what it records
and finds. It shows only in the order of the findings of one class, when several entries have findings of
that class and change places.
-/

namespace Callsite

-- ---------------------------------------------------------------------------
-- Entries in another order
-- ---------------------------------------------------------------------------

/-- Of related entries, the one that came first still does when `σ i` comes at the place `i`. -/
def KeepsOrder (related : Entry → Entry → Prop) (es : Fin n → Entry) (σ : Equiv.Perm (Fin n)) :
    Prop :=
  ∀ i j, i < j → related (es (σ i)) (es (σ j)) → σ i < σ j

namespace KeepsOrder

variable {es : Fin n → Entry} {σ : Equiv.Perm (Fin n)}

theorem mono (h : KeepsOrder related es σ) (hrelated : ∀ e e', other e e' → related e e') :
    KeepsOrder other es σ :=
  fun i j hij hother => h i j hij (hrelated _ _ hother)

/-- Entries that are related to each other are left as they were. -/
theorem filter_eq (h : KeepsOrder related es σ) {p : Entry → Bool}
    (hp : ∀ e e', p e = true → p e' = true → related e e') :
    (List.ofFn (es ∘ σ)).filter p = (List.ofFn es).filter p := by
  have hafter : (((List.finRange n).map σ).filter (p ∘ es)).Pairwise (· < ·) := by
    rw [List.filter_map, List.pairwise_map, List.pairwise_filter]
    exact (List.pairwise_lt_finRange n).imp fun hij hi hj => h _ _ hij (hp _ _ hi hj)
  have hbefore : ((List.finRange n).filter (p ∘ es)).Pairwise (· < ·) :=
    (List.pairwise_lt_finRange n).filter _
  have hindices := List.Perm.eq_of_pairwise (fun i j _ _ hij hji => absurd hji (Fin.lt_asymm hij))
    hafter hbefore (σ.map_finRange_perm.filter _)
  calc (List.ofFn (es ∘ σ)).filter p
      = (((List.finRange n).map σ).filter (p ∘ es)).map es := by
        rw [List.ofFn_eq_map, ← List.map_map, List.filter_map]
    _ = ((List.finRange n).filter (p ∘ es)).map es := by rw [hindices]
    _ = (List.ofFn es).filter p := by rw [List.ofFn_eq_map, List.filter_map]

end KeepsOrder

-- ---------------------------------------------------------------------------
-- Entries of one class
-- ---------------------------------------------------------------------------

namespace Entry

/-- Both entries have findings of one caller class. -/
def SharesCaller (tools : List Tool) (e e' : Entry) : Prop :=
  ∃ f ∈ e.findings tools, ∃ f' ∈ e'.findings tools, f.callerClass = f'.callerClass

/-- Both entries hold classes, and these have the same dotted name. -/
def SameClass (e e' : Entry) : Prop :=
  ∃ file file', ClassFile.decode e.data = .ok file ∧ ClassFile.decode e'.data = .ok file' ∧
    file.dottedName = file'.dottedName

/-- Some finding of the entry is of the given caller class. -/
def finds (tools : List Tool) (owner : Text) (e : Entry) : Bool :=
  (e.findings tools).any (·.callerClass = owner)

theorem sharesCaller_of_finds (h : e.finds tools owner = true) (h' : e'.finds tools owner = true) :
    SharesCaller tools e e' := by
  simp only [finds, List.any_eq_true, decide_eq_true_eq] at h h'
  obtain ⟨f, hf, rfl⟩ := h
  obtain ⟨f', hf', hclass⟩ := h'
  exact ⟨f, hf, f', hf', hclass.symm⟩

theorem ofClass_findings {e : Entry} (h : ¬e.finds tools owner = true) :
    Finding.ofClass owner (e.findings tools) = [] := by
  simp only [finds, List.any_eq_true, not_exists, not_and] at h
  exact List.filter_eq_nil_iff.mpr h

/-- Entries without a finding of a class do not matter to the findings of that class. -/
theorem ofClass_flatMap_findings (tools : List Tool) (owner : Text) (es : List Entry) :
    Finding.ofClass owner (es.flatMap (findings tools)) =
      Finding.ofClass owner ((es.filter (finds tools owner)).flatMap (findings tools)) := by
  induction es with
  | nil => rfl
  | cons e es ih =>
    rw [List.flatMap_cons, Finding.ofClass_append, ih]
    by_cases h : e.finds tools owner = true
    · rw [List.filter_cons_of_pos h, List.flatMap_cons, Finding.ofClass_append]
    · rw [List.filter_cons_of_neg h, ofClass_findings h, List.nil_append]

end Entry

/-- The findings of the tool are of the class in which it looks. -/
def Tool.FindsOwn (tool : Tool) : Prop :=
  ∀ owner m instructions, ∀ f ∈ tool.find owner m instructions, f.callerClass = owner

namespace Tool

theorem exists_of_mem_references (hf : f ∈ references select stem owner m instructions) :
    ∃ reference, Finding.ofReference owner m reference = f := by
  obtain ⟨reference, -, -, hreference⟩ := mem_references.mp hf
  exact ⟨reference, hreference⟩

theorem findsOwn_references (name : String) (select : Instruction → Option MemberReference)
    (stem : Text) : FindsOwn { name, find := references select stem } := by
  intro owner m instructions f hf
  obtain ⟨reference, rfl⟩ := exists_of_mem_references hf
  rfl

theorem findsOwn_calls (stem : Text) : (calls stem).FindsOwn := findsOwn_references _ _ _

theorem findsOwn_fields (stem : Text) : (fields stem).FindsOwn := findsOwn_references _ _ _

end Tool

namespace Entry

/-- Every finding is one of some tool in the instructions of some method of the class. -/
theorem exists_of_mem_findings (hf : f ∈ findings tools e) :
    ∃ file, ClassFile.decode e.data = .ok file ∧ ∃ m ∈ file.methods, ∃ instructions,
      decodeMethod file m = .ok instructions ∧
      ∃ tool ∈ tools, f ∈ tool.find file.dottedName m instructions := by
  rw [findings, decodeEntry] at hf
  cases hfile : ClassFile.decode e.data with
  | error fault =>
    rw [hfile] at hf
    cases hf
  | ok file =>
    rw [hfile] at hf
    obtain ⟨m, hm, hfound⟩ := List.mem_flatMap.mp hf
    rw [Method.findings] at hfound
    split at hfound
    next instructions hinstructions =>
      exact ⟨file, rfl, m, hm, instructions, hinstructions, List.mem_flatMap.mp hfound⟩
    next => cases hfound

theorem mem_findings (h : ∀ tool ∈ tools, Tool.FindsOwn tool) (hf : f ∈ findings tools e) :
    ∃ file, ClassFile.decode e.data = .ok file ∧ f.callerClass = file.dottedName := by
  obtain ⟨file, hfile, m, -, instructions, -, tool, htool, hfound⟩ := exists_of_mem_findings hf
  exact ⟨file, hfile, h tool htool _ m instructions f hfound⟩

theorem SharesCaller.sameClass (h : ∀ tool ∈ tools, Tool.FindsOwn tool)
    (hshares : SharesCaller tools e e') : SameClass e e' := by
  obtain ⟨f, hf, f', hf', hclass⟩ := hshares
  obtain ⟨file, hfile, howner⟩ := mem_findings h hf
  obtain ⟨file', hfile', howner'⟩ := mem_findings h hf'
  exact ⟨file, file', hfile, hfile', by rw [← howner, ← howner', hclass]⟩

end Entry

-- ---------------------------------------------------------------------------
-- Scans
-- ---------------------------------------------------------------------------

namespace Progress

/-- A scan that starts with an empty aggregate. -/
def scan (tools : List Tool) (mode : Mode) (d : Diagnostics) (es : List Entry) : Progress :=
  { results := .empty mode, diagnostics := d : Progress }.entries tools es

theorem results_scan (tools : List Tool) (mode : Mode) (d : Diagnostics) (es : List Entry) :
    (scan tools mode d es).results =
      (Aggregate.empty mode).extend (es.flatMap (Entry.findings tools)) := results_entries ..

theorem nodup_scan (tools : List Tool) (d : Diagnostics) (es : List Entry) :
    (scan tools .unordered d es).results.toList.Nodup := by
  rw [results_scan]
  exact Aggregate.nodup_extend .nil _

theorem results_scan_perm (tools : List Tool) (mode : Mode) (d : Diagnostics) (h : es.Perm es') :
    (scan tools mode d es).results.toList.Perm (scan tools mode d es').results.toList := by
  have hfindings := h.flatMap_right (Entry.findings tools)
  cases mode with
  | ordered =>
    rw [results_scan, results_scan]
    obtain ⟨groups, hgroups, hcollects⟩ := Aggregate.exists_groups (es.flatMap (Entry.findings tools))
    obtain ⟨groups', hgroups', hcollects'⟩ :=
      Aggregate.exists_groups (es'.flatMap (Entry.findings tools))
    rw [hgroups, hgroups']
    exact (hcollects.perm.trans hfindings).trans hcollects'.perm.symm
  | unordered =>
    refine (List.perm_ext_iff_of_nodup (nodup_scan ..) (nodup_scan ..)).mpr fun f => ?_
    rw [results_scan, results_scan, Aggregate.mem_extend, Aggregate.mem_extend, hfindings.mem_iff]

theorem results_scan_eq (tools : List Tool) (d : Diagnostics) {es : Fin n → Entry}
    {σ : Equiv.Perm (Fin n)} (h : KeepsOrder (Entry.SharesCaller tools) es σ) :
    (scan tools .ordered d (.ofFn (es ∘ σ))).results.toList =
      (scan tools .ordered d (.ofFn es)).results.toList := by
  rw [results_scan, results_scan]
  refine Aggregate.ordered_eq_of_ofClass fun owner => ?_
  rw [Entry.ofClass_flatMap_findings, Entry.ofClass_flatMap_findings tools owner (.ofFn es),
    h.filter_eq fun e e' => Entry.sharesCaller_of_finds]

/-- Entries in another order give as many classes, the same failures and the same results, and in
unordered mode each result once. In ordered mode the results also come in the same order, as long as
entries with findings of one class do. Tools whose findings are of the class in which they look, as
calls and fields are, have such findings only in classes of one dotted name. -/
theorem entries_permuted (tools : List Tool) (d : Diagnostics) (es : Fin n → Entry)
    (σ : Equiv.Perm (Fin n)) :
    (∀ mode, (scan tools mode d (.ofFn (es ∘ σ))).decoded =
        (scan tools mode d (.ofFn es)).decoded ∧
      (scan tools mode d (.ofFn (es ∘ σ))).diagnostics.failures.toList.Perm
        (scan tools mode d (.ofFn es)).diagnostics.failures.toList ∧
      (scan tools mode d (.ofFn (es ∘ σ))).results.toList.Perm
        (scan tools mode d (.ofFn es)).results.toList) ∧
    (scan tools .unordered d (.ofFn es)).results.toList.Nodup ∧
    (KeepsOrder (Entry.SharesCaller tools) es σ →
      (scan tools .ordered d (.ofFn (es ∘ σ))).results.toList =
        (scan tools .ordered d (.ofFn es)).results.toList) ∧
    ((∀ tool ∈ tools, tool.FindsOwn) → KeepsOrder Entry.SameClass es σ →
      (scan tools .ordered d (.ofFn (es ∘ σ))).results.toList =
        (scan tools .ordered d (.ofFn es)).results.toList) := by
  have hperm := σ.ofFn_comp_perm es
  refine ⟨fun mode => ⟨?_, ?_, results_scan_perm tools mode d hperm⟩, nodup_scan .., ?_, ?_⟩
  · rw [scan, scan, decoded_entries, decoded_entries, hperm.countP_eq]
  · rw [scan, scan, failures_entries, failures_entries]
    exact (hperm.flatMap_right Entry.failures).append_left _
  · exact results_scan_eq tools d
  · intro hown hkeeps
    exact results_scan_eq tools d (hkeeps.mono fun e e' => Entry.SharesCaller.sameClass hown)

end Progress

/-- A class under two names, with an entry between them that is no class. -/
def Entry.selfCallerTwice : Fin 3 → Entry
  | 0 => { name := "A.class", data := ClassSource.selfCaller.bytes }
  | 1 => { name := "empty.class", data := [] }
  | 2 => { name := "lib/A.class", data := ClassSource.selfCaller.bytes }

/-- The entry that is no class may come first. -/
theorem KeepsOrder.selfCallerTwice :
    KeepsOrder Entry.SameClass Entry.selfCallerTwice (Equiv.swap 0 1) := by
  rintro i j hij ⟨file, -, hfile, -⟩
  have hmoved : ∀ i j : Fin 3, i < j → i ≠ 0 → Equiv.swap 0 1 i < Equiv.swap 0 1 j := by decide
  refine hmoved i j hij ?_
  rintro rfl
  cases hfile

theorem Progress.entries_permuted_selfCallerTwice :
    (scan [.calls "LA;", .fields "LA;"] .ordered {}
      (.ofFn (Entry.selfCallerTwice ∘ Equiv.swap 0 1))).results.toList =
        [⟨"A", "A.f()V", "A.f()V"⟩, ⟨"A", "A.f()V", "A.f()V"⟩] := by
  have hown : ∀ tool ∈ [Tool.calls "LA;", .fields "LA;"], tool.FindsOwn := by
    simp [Tool.findsOwn_calls, Tool.findsOwn_fields]
  have hfound : (scan [.calls "LA;", .fields "LA;"] .ordered {}
      (.ofFn Entry.selfCallerTwice)).results.toList =
        [⟨"A", "A.f()V", "A.f()V"⟩, ⟨"A", "A.f()V", "A.f()V"⟩] := by decide +kernel
  rw [← hfound]
  exact (entries_permuted _ {} Entry.selfCallerTwice (Equiv.swap 0 1)).2.2.2 hown .selfCallerTwice

/-- The bytes of a constant that holds a text in ASCII. -/
def asciiConstant (s : String) : List UInt8 :=
  1 :: (bigEndian 2 s.length ++ s.toList.map fun c => UInt8.ofNat c.toNat)

/-- A class with one method of type `()V`, which calls the method `g()V` of another class. -/
def Entry.calling (owner method callee : String) : Entry where
  name := owner ++ ".class"
  data :=
    bigEndian 4 magic ++ [0, 0, 0, 52, 0, 11] ++
      (asciiConstant owner ++ [7, 0, 1] ++ asciiConstant "Code" ++ asciiConstant method ++
        asciiConstant "()V" ++ asciiConstant callee ++ [7, 0, 6] ++ asciiConstant "g" ++
        [12, 0, 8, 0, 5] ++ [10, 0, 7, 0, 9]) ++
      [0, 0x21, 0, 2, 0, 0, 0, 0, 0, 0, 0, 1] ++
      ([0, 8, 0, 4, 0, 5, 0, 1] ++ [0, 3, 0, 0, 0, 16] ++ [0, 0, 0, 0, 0, 0, 0, 4] ++
        [0xB8, 0, 10, 0xB1] ++ [0, 0, 0, 0]) ++ [0, 0]

/-- Two classes of different names that call the same method. -/
def Entry.twoCallers : Fin 2 → Entry
  | 0 => .calling "a" "f" "x"
  | 1 => .calling "b" "f" "x"

/-- Names every method it looks at, all of them under one class. -/
def Tool.underOneClass : Tool where
  name := "methods"
  find owner m _ := [⟨"X", m.identity owner, "Y"⟩]

theorem Entry.not_sameClass_twoCallers (h : i ≠ j) : ¬SameClass (twoCallers i) (twoCallers j) := by
  have hnames : ∀ i j, i ≠ j →
      (ClassFile.decode (twoCallers i).data).toOption.map (·.dottedName) ≠
        (ClassFile.decode (twoCallers j).data).toOption.map (·.dottedName) := by decide +kernel
  rintro ⟨file, file', hfile, hfile', hname⟩
  refine hnames i j h ?_
  rw [hfile, hfile']
  exact congrArg some hname

/-- A tool that reports under another class than the one in which it looks shows the order of entries
that hold different classes. -/
theorem Progress.entries_permuted_underOneClass :
    KeepsOrder Entry.SameClass Entry.twoCallers (Equiv.swap 0 1) ∧
      (scan [.underOneClass] .ordered {} (.ofFn Entry.twoCallers)).results.toList =
        [⟨"X", "a.f()V", "Y"⟩, ⟨"X", "b.f()V", "Y"⟩] ∧
      (scan [.underOneClass] .ordered {}
        (.ofFn (Entry.twoCallers ∘ Equiv.swap 0 1))).results.toList =
          [⟨"X", "b.f()V", "Y"⟩, ⟨"X", "a.f()V", "Y"⟩] := by
  refine ⟨fun i j hij hsame => ?_, by decide +kernel, by decide +kernel⟩
  have hne := (Equiv.swap 0 1).injective.ne hij.ne
  exact absurd hsame (Entry.not_sameClass_twoCallers hne)

end Callsite
