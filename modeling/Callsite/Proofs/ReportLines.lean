import Callsite.Proofs.ClassFaults
import Callsite.Proofs.CsvReading
import Callsite.Proofs.DuplicatePairs
import Callsite.Proofs.PackageMatching
import Callsite.Proofs.PoolTexts

/-!
# The lines of a report

A report in lines ends the text of each result with a newline and quotes nothing. Split at newlines it
gives the pieces of the results in turn, and an empty piece at the end. There is one piece for each
result exactly when no result holds a newline, which is so of all classes without a newline in a text of
their constant pool (`write_log_lines`). Nothing else keeps newlines out: a method can have one in its
name, and its results then take more than one line (`write_log_split`).
-/

namespace Callsite

-- ---------------------------------------------------------------------------
-- Pieces
-- ---------------------------------------------------------------------------

namespace Text

theorem newline_mem_escaped (t : Text) : newline ∈ t.escaped ↔ newline ∈ t := by
  rw [escaped, List.mem_flatMap]
  constructor
  · rintro ⟨c, hc, hnewline⟩
    split at hnewline
    next =>
      -- the form of a surrogate has letters and digits only
      have hrange := surrogateForm_range hnewline
      exact absurd hrange.1 (by decide)
    next => exact List.mem_singleton.mp hnewline ▸ hc
  · intro hnewline
    exact ⟨newline, hnewline, by decide⟩

/-- Texts that end in newlines give their own pieces, one text after the other. -/
theorem splitOn_ended (lines : List Text) :
    Text.splitOn (lines.flatMap (· ++ [newline])) newline =
      lines.flatMap (·.splitOn newline) ++ [[]] := by
  induction lines with
  | nil => rfl
  | cons line lines ih =>
    rw [splitOn] at ih ⊢
    rw [List.flatMap_cons, List.append_assoc, List.singleton_append, List.splitOn_append_cons_self, ih,
      List.flatMap_cons, List.append_assoc]
    rfl

theorem splitOn_ended_eq_iff (lines : List Text) :
    Text.splitOn (lines.flatMap (· ++ [newline])) newline = lines ++ [[]] ↔
      ∀ line ∈ lines, newline ∉ line := by
  rw [splitOn_ended, List.append_left_inj]
  constructor
  · intro heq line hline hnewline
    -- the line is a piece, and pieces hold no newline
    rw [← heq] at hline
    obtain ⟨whole, -, hpiece⟩ := List.mem_flatMap.mp hline
    exact (mem_splitOn hpiece hnewline).2 rfl
  · intro h
    induction lines with
    | nil => rfl
    | cons line lines ih =>
      obtain ⟨hline, hlines⟩ := List.forall_mem_cons.mp h
      rw [List.flatMap_cons, ih hlines, splitOn, List.splitOn_eq_singleton hline]
      rfl

end Text

-- ---------------------------------------------------------------------------
-- Results
-- ---------------------------------------------------------------------------

/-- The finding can be told in one line. -/
def Finding.Unbroken (f : Finding) : Prop := newline ∉ f.caller ∧ newline ∉ f.callee

theorem Finding.newline_mem_render (f : Finding) : newline ∉ f.render ↔ f.Unbroken := by
  have harrow : newline ∉ Text.ofString " -> " := by decide
  simp [render, Unbroken, harrow]

/-- No text of the constant pool holds a newline. -/
def Entry.Unbroken (e : Entry) : Prop :=
  ∀ file ∈ (ClassFile.decode e.data).toOption, ∀ t ∈ file.pool.texts, newline ∉ t

instance (e : Entry) : Decidable e.Unbroken :=
  inferInstanceAs (Decidable (∀ file ∈ (ClassFile.decode e.data).toOption, _))

theorem Operand.reference?_of_call? {o : Operand} (h : o.call? = some r) : o.reference? = some r := by
  cases o with
  | none | field => cases h
  | method | interfaceMethod | dynamicCall => exact h

theorem Operand.reference?_of_field? {o : Operand} (h : o.field? = some r) : o.reference? = some r := by
  cases o with
  | field => exact h
  | none | method | interfaceMethod | dynamicCall => cases h

namespace Tool

/-- The tool reports references of some instructions. -/
def IsReferences (tool : Tool) : Prop := ∃ stem, tool = .calls stem ∨ tool = .fields stem

theorem IsReferences.exists_reference {tool : Tool} (h : tool.IsReferences)
    (hf : f ∈ tool.find owner m instructions) :
    ∃ i ∈ instructions, ∃ r, i.operand.reference? = some r ∧ Finding.ofReference owner m r = f := by
  obtain ⟨stem, rfl | rfl⟩ := h
  · obtain ⟨r, hr, -, hf⟩ := mem_references.mp hf
    obtain ⟨i, hi, hcall⟩ := List.mem_filterMap.mp hr
    exact ⟨i, hi, r, Operand.reference?_of_call? hcall, hf⟩
  · obtain ⟨r, hr, -, hf⟩ := mem_references.mp hf
    obtain ⟨i, hi, hfield⟩ := List.mem_filterMap.mp hr
    exact ⟨i, hi, r, Operand.reference?_of_field? hfield, hf⟩

end Tool

theorem Text.newline_not_mem_dotted {t : Text} (h : newline ∉ t) : newline ∉ t.dotted := by
  intro hnewline
  rcases mem_replaceAll hnewline with hmem | hdot
  · exact h hmem
  · exact absurd hdot (by decide)

theorem MemberReference.newline_not_mem_render {pool : ConstantPool}
    (hpool : ∀ t ∈ pool.texts, newline ∉ t) (h : pool.HasMember r) : newline ∉ r.render := by
  have howner : newline ∉ r.owner := by
    rcases h.owner with howner | howner
    · exact hpool _ howner
    · rw [howner]
      decide
  have hdot : newline ∉ Text.ofString "." := by decide
  simp [render, Text.newline_not_mem_dotted howner, hdot, hpool _ h.name, hpool _ h.descriptor]

theorem Entry.unbroken_of_mem_findings (htools : ∀ tool ∈ tools, Tool.IsReferences tool)
    (he : Entry.Unbroken e) (hf : f ∈ e.findings tools) : f.Unbroken := by
  obtain ⟨file, hfile, m, hm, instructions, hinstructions, tool, htool, hfound⟩ :=
    exists_of_mem_findings hf
  obtain ⟨i, hi, r, hr, rfl⟩ := (htools tool htool).exists_reference hfound
  obtain ⟨hclass, hmethods⟩ := ClassFile.decode_mem_texts hfile
  obtain ⟨hname, hdescriptor⟩ := hmethods m hm
  have hpool := he file (by rw [hfile]; rfl)
  have hmember : file.pool.HasMember r := m.hasMember (mapError_ok.mp hinstructions) hi hr
  have hdot : newline ∉ Text.ofString "." := by decide
  refine ⟨?_, MemberReference.newline_not_mem_render hpool hmember⟩
  simp [Finding.ofReference, Method.identity, Method.signature, ClassFile.dottedName, hdot,
    Text.newline_not_mem_dotted (hpool _ hclass), hpool _ hname, hpool _ hdescriptor]

-- ---------------------------------------------------------------------------
-- Reports
-- ---------------------------------------------------------------------------

namespace Report

/-- The lines of a report, one for each finding. -/
def lines (findings : List Finding) : List Text :=
  findings.map fun f => Text.escaped (f.caller ++ " -> " ++ f.callee)

theorem render_log (findings : List Finding) :
    (render .log findings).escapeSurrogates = (lines findings).flatMap (· ++ [newline]) := by
  rw [Text.escapeSurrogates_eq, render, lines, List.flatMap_map]
  induction findings with
  | nil => rfl
  | cons f findings ih =>
    rw [List.flatMap_cons, List.flatMap_cons, Text.escaped_append, ih, Text.escaped_append]
    rfl

theorem forall_lines {findings : List Finding} :
    (∀ line ∈ lines findings, newline ∉ line) ↔ ∀ f ∈ findings, f.Unbroken := by
  rw [lines, List.forall_mem_map]
  refine forall₂_congr fun f _ => ?_
  rw [Text.newline_mem_escaped]
  exact f.newline_mem_render

theorem splitOn_lines {findings : List Finding} :
    Text.splitOn ((lines findings).flatMap (· ++ [newline])) newline = lines findings ++ [[]] ↔
      ∀ f ∈ findings, f.Unbroken :=
  (Text.splitOn_ended_eq_iff _).trans forall_lines

variable {σ : Type} [FileStore (StateM σ)]

theorem write_log (findings : List Finding) {path : Path} (d : Diagnostics) {t : Traced σ}
    (hname : FileName.Fits path.render)
    (hwritable : ∀ content, (FileStore.written path.render content t.state).1 = .ok ()) :
    ∃ bytes d' t', (write findings path .log).exec d t = ((.ok true, d'), t') ∧
      t'.writes = t.writes ++ [(path.render, bytes)] ∧
      Utf8.decode bytes = .ok ((lines findings).flatMap (· ++ [newline])) := by
  obtain ⟨d', hput, -⟩ := exec_put hname (encode .log findings) d t
  rw [Traced.written_eq, hwritable] at hput
  rw [← render_log, ← decode_encode]
  exact ⟨_, _, _, Run.exec_bind_ok hput _, rfl, rfl⟩

/-- A report of the results of a scan is a text of the pieces of its lines and an empty one. The pieces
are the lines, one for each result in turn, just when no result holds a newline. For calls and field
accesses they are if no class has a constant that holds one. -/
theorem write_log_lines (tools : List Tool) (mode : Mode) (scanned : Diagnostics) (es : List Entry)
    {path : Path} (d : Diagnostics) {t : Traced σ} (hname : FileName.Fits path.render)
    (hwritable : ∀ content, (FileStore.written path.render content t.state).1 = .ok ()) :
    ∃ bytes text d' t',
      (write (Progress.scan tools mode scanned es).results.toList path .log).exec d t =
          ((.ok true, d'), t') ∧
        t'.writes = t.writes ++ [(path.render, bytes)] ∧ Utf8.decode bytes = .ok text ∧
        text.splitOn newline =
          (lines (Progress.scan tools mode scanned es).results.toList).flatMap (·.splitOn newline) ++
            [[]] ∧
        (text.splitOn newline = lines (Progress.scan tools mode scanned es).results.toList ++ [[]] ↔
          ∀ f ∈ (Progress.scan tools mode scanned es).results.toList, f.Unbroken) ∧
        ((∀ tool ∈ tools, tool.IsReferences) → (∀ e ∈ es, e.Unbroken) →
          text.splitOn newline =
            lines (Progress.scan tools mode scanned es).results.toList ++ [[]]) := by
  generalize hresults : (Progress.scan tools mode scanned es).results.toList = results
  obtain ⟨bytes, d', t', hwrite, hwrites, htext⟩ := write_log results d hname hwritable
  refine ⟨bytes, _, d', t', hwrite, hwrites, htext, Text.splitOn_ended _, splitOn_lines,
    fun htools hes => splitOn_lines.mpr fun f hf => ?_⟩
  rw [← hresults] at hf
  obtain ⟨e, he, hf⟩ := (Progress.mem_scan ..).mp hf
  exact Entry.unbroken_of_mem_findings htools (hes e he) hf

/-- Two classes, one of which calls a method of a class with an awkward name. -/
theorem write_log_lines_twoClasses :
    let tools := [Tool.calls "Lx", .fields "Lx"]
    let es := [Entry.calling "a/B" "f" "x\r", .calling "A" " -> " "x"]
    ∃ bytes text d' t',
      (write (Progress.scan tools .ordered {} es).results.toList (.ofText "r.log") .log).exec {}
          ({ state := {} } : Traced FileTree) = ((.ok true, d'), t') ∧
        t'.writes = [(Text.ofString "r.log", bytes)] ∧ Utf8.decode bytes = .ok text ∧
        text.splitOn newline =
          [Text.ofString "A. -> ()V -> x.g()V", "a.B.f()V -> x\r.g()V", ""] := by
  intro tools es
  have hname : FileName.Fits (Path.ofText "r.log").render := by decide
  have htools : ∀ tool ∈ tools, tool.IsReferences := by
    rw [List.forall_mem_cons, List.forall_mem_singleton]
    exact ⟨⟨"Lx", .inl rfl⟩, ⟨"Lx", .inr rfl⟩⟩
  have hes : ∀ e ∈ es, e.Unbroken := by decide +kernel
  have hlines : lines (Progress.scan tools .ordered {} es).results.toList =
      [Text.ofString "A. -> ()V -> x.g()V", "a.B.f()V -> x\r.g()V"] := by decide +kernel
  obtain ⟨bytes, text, d', t', hwrite, hwrites, htext, -, -, hsplit⟩ :=
    write_log_lines (σ := FileTree) (t := { state := {} }) tools .ordered {} es {} hname fun _ => rfl
  refine ⟨bytes, text, d', t', hwrite, hwrites, htext, ?_⟩
  rw [hsplit htools hes, hlines]
  rfl

/-- A class whose method has a newline in its name, and one result on two lines. -/
theorem write_log_split :
    let results := (Progress.scan [.calls "Lx"] .ordered {} [.calling "A" "f\ng" "x"]).results.toList
    results.length = 1 ∧
      ∃ bytes text d' t',
        (write results (.ofText "r.log") .log).exec {} ({ state := {} } : Traced FileTree) =
            ((.ok true, d'), t') ∧
          t'.writes = [(Text.ofString "r.log", bytes)] ∧ Utf8.decode bytes = .ok text ∧
          text.splitOn newline = [Text.ofString "A.f", "g()V -> x.g()V", ""] := by
  intro results
  have hresults : results = [⟨"A", "A.f\ng()V", "x.g()V"⟩] := by decide +kernel
  have hname : FileName.Fits (Path.ofText "r.log").render := by decide
  obtain ⟨bytes, d', t', hwrite, hwrites, htext⟩ :=
    write_log (σ := FileTree) (t := { state := {} }) results {} hname fun _ => rfl
  refine ⟨congrArg List.length hresults, bytes, _, d', t', hwrite, hwrites, htext, ?_⟩
  rw [hresults]
  decide

end Report

end Callsite
