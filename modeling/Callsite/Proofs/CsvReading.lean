import Callsite.Proofs.FileNames
import Callsite.Proofs.Runs
import Callsite.Proofs.Utf8Encoding

/-!
# Reading tables of comma-separated values

A reader of comma-separated values takes a text code point by code point. Fields stand between commas,
rows end in a carriage return and a newline, and a field in quotation marks may hold anything, with
quotation marks doubled. Such a reader gets out of a report what was put into it, but for surrogates,
which are written as escapes.
-/

namespace Callsite

-- ---------------------------------------------------------------------------
-- The reader
-- ---------------------------------------------------------------------------

namespace Csv

inductive Place
  /-- Nothing of the field has come. -/
  | start
  | plain
  | quoted
  /-- A quotation mark has come in a quoted field: it ends the field, or is the first of two. -/
  | mark
  /-- A carriage return has come. -/
  | rowEnd
  deriving DecidableEq

/-- The rows that are complete, the complete fields of the row, and the field, as far as they came. -/
structure Reader where
  rows : List (List Text) := []
  row : List Text := []
  field : Text := []
  place : Place := .start

namespace Reader

def take (r : Reader) (c : CodePoint) (place : Place) : Reader :=
  { r with field := r.field ++ [c], place }

def endField (r : Reader) : Reader := { r with row := r.row ++ [r.field], field := [], place := .start }

def endRow (r : Reader) : Reader := { rows := r.rows ++ [r.row ++ [r.field]] }

/-- A code point after a field. -/
def divide (r : Reader) (c : CodePoint) : Option Reader :=
  if c = comma then some r.endField
  else if c = carriageReturn then some { r with place := .rowEnd }
  else none

/-- A code point in a field without quotation marks, or after it. -/
def plain (r : Reader) (c : CodePoint) : Option Reader :=
  if c = comma ∨ c = carriageReturn ∨ c = newline ∨ c = quotationMark then r.divide c
  else some (r.take c .plain)

def next (r : Reader) (c : CodePoint) : Option Reader :=
  match r.place with
  | .start => if c = quotationMark then some { r with place := .quoted } else r.plain c
  | .plain => r.plain c
  | .quoted => some (if c = quotationMark then { r with place := .mark } else r.take c .quoted)
  | .mark => if c = quotationMark then some (r.take c .quoted) else r.divide c
  | .rowEnd => if c = newline then some r.endRow else none

/-- The last row may do without its end. -/
def finish (r : Reader) : Option (List (List Text)) :=
  match r.place with
  | .start => some (if r.row = [] then r.rows else r.endRow.rows)
  | .plain | .mark => some r.endRow.rows
  | .quoted | .rowEnd => none

end Reader

/-- The rows of a table, unless it is malformed. -/
def rows? (t : Text) : Option (List (List Text)) := do (← t.foldlM Reader.next {}).finish

-- ---------------------------------------------------------------------------
-- Reading what was written
-- ---------------------------------------------------------------------------

/-- The field may end here. -/
def Place.mayEnd : Place → Bool
  | .start | .plain | .mark => true
  | .quoted | .rowEnd => false

variable {rows : List (List Text)} {row : List Text} {t : Text} {place : Place}

theorem next_comma (h : place.mayEnd = true) :
    Reader.next ⟨rows, row, t, place⟩ comma = some ⟨rows, row ++ [t], [], .start⟩ := by
  cases place with
  | start => rfl
  | plain => rfl
  | mark => rfl
  | quoted | rowEnd => cases h

theorem next_carriageReturn (h : place.mayEnd = true) :
    Reader.next ⟨rows, row, t, place⟩ carriageReturn = some ⟨rows, row, t, .rowEnd⟩ := by
  cases place with
  | start => rfl
  | plain => rfl
  | mark => rfl
  | quoted | rowEnd => cases h

theorem next_newline : Reader.next ⟨rows, row, t, .rowEnd⟩ newline =
    some ⟨rows ++ [row ++ [t]], [], [], .start⟩ := rfl

theorem plain_of_not_special (h : isSpecial c = false) (r : Reader) :
    r.plain c = some (r.take c .plain) := by
  simp only [isSpecial, Bool.or_eq_false_iff, decide_eq_false_iff_not] at h
  simp [Reader.plain, h]

/-- A field without special characters is read as it stands. -/
theorem read_plain (h : ∀ c ∈ t, isSpecial c = false) (taken : Text)
    (hplace : place = .start ∨ place = .plain) : ∃ after : Place, after.mayEnd = true ∧
      t.foldlM Reader.next ⟨rows, row, taken, place⟩ = some ⟨rows, row, taken ++ t, after⟩ := by
  induction t generalizing taken place with
  | nil => exact ⟨place, by rcases hplace with rfl | rfl <;> rfl, by simp⟩
  | cons c t ih =>
    obtain ⟨hc, ht⟩ := List.forall_mem_cons.mp h
    have hnext : Reader.next ⟨rows, row, taken, place⟩ c = some ⟨rows, row, taken ++ [c], .plain⟩ := by
      have hquote : c ≠ quotationMark := by
        rintro rfl
        cases hc
      rcases hplace with rfl | rfl
      · simp [Reader.next, hquote, plain_of_not_special hc, Reader.take]
      · simp [Reader.next, plain_of_not_special hc, Reader.take]
    obtain ⟨after, hafter, hread⟩ := ih ht (taken ++ [c]) (.inr rfl)
    refine ⟨after, hafter, ?_⟩
    simp [hnext, hread]

def doubled (t : Text) : Text := t.flatMap fun c => if c = quotationMark then [c, c] else [c]

theorem doubled_append (t u : Text) : doubled (t ++ u) = doubled t ++ doubled u := List.flatMap_append

theorem doubled_cons (c : CodePoint) (t : Text) :
    doubled (c :: t) = (if c = quotationMark then [c, c] else [c]) ++ doubled t := List.flatMap_cons

theorem field_eq (t : Text) : field t =
    if t.any isSpecial then quotationMark :: doubled t ++ [quotationMark] else t := rfl

/-- Between quotation marks a doubled mark is one, and all else is read as it stands. -/
theorem read_doubled (taken : Text) : (doubled t).foldlM Reader.next ⟨rows, row, taken, .quoted⟩ =
    some ⟨rows, row, taken ++ t, .quoted⟩ := by
  induction t generalizing taken with
  | nil => simp [doubled]
  | cons c t ih =>
    rw [doubled_cons, List.foldlM_append]
    by_cases hc : c = quotationMark
    · simp [hc, Reader.next, Reader.take, ih]
    · simp [hc, Reader.next, Reader.take, ih]

theorem read_field (rows : List (List Text)) (row : List Text) (t : Text) :
    ∃ after : Place, after.mayEnd = true ∧
      (field t).foldlM Reader.next ⟨rows, row, [], .start⟩ = some ⟨rows, row, t, after⟩ := by
  rw [field_eq]
  split
  next =>
    refine ⟨.mark, rfl, ?_⟩
    simp [List.foldlM_append, Reader.next, read_doubled]
  next hplain =>
    simp only [List.any_eq_true, not_exists, not_and, Bool.not_eq_true] at hplain
    exact read_plain hplain [] (.inl rfl)

theorem read_fields (rows : List (List Text)) (row : List Text) (first : Text) (more : List Text) :
    ∃ before last, ∃ after : Place, row ++ first :: more = before ++ [last] ∧ after.mayEnd = true ∧
      (Text.join [comma] ((first :: more).map field)).foldlM Reader.next ⟨rows, row, [], .start⟩ =
        some ⟨rows, before, last, after⟩ := by
  induction more generalizing first row with
  | nil =>
    obtain ⟨after, hafter, hread⟩ := read_field rows row first
    exact ⟨row, first, after, rfl, hafter, by simpa [Text.join] using hread⟩
  | cons second more ih =>
    obtain ⟨after, hafter, hread⟩ := read_field rows row first
    obtain ⟨before, last, final, hrow, hfinal, hrest⟩ := ih (row ++ [first]) second
    refine ⟨before, last, final, by simpa using hrow, hfinal, ?_⟩
    simp only [Text.join, List.map_cons, List.intercalate_cons_cons, List.foldlM_append] at hrest ⊢
    simp [hread, next_comma hafter, hrest]

theorem read_row (h : fields ≠ []) :
    (Csv.row fields).foldlM Reader.next ⟨rows, [], [], .start⟩ =
      some ⟨rows ++ [fields], [], [], .start⟩ := by
  cases fields with
  | nil => exact absurd rfl h
  | cons first more =>
    obtain ⟨before, last, after, hrow, hafter, hread⟩ := read_fields rows [] first more
    rw [Csv.row, List.foldlM_append, hread]
    simp [next_carriageReturn hafter, next_newline, ← hrow]

theorem read_rows {table : List (List Text)} (h : ∀ fields ∈ table, fields ≠ []) :
    (table.flatMap Csv.row).foldlM Reader.next ⟨rows, [], [], .start⟩ =
      some ⟨rows ++ table, [], [], .start⟩ := by
  induction table generalizing rows with
  | nil => simp
  | cons fields table ih =>
    obtain ⟨hfields, htable⟩ := List.forall_mem_cons.mp h
    simp [List.foldlM_append, read_row hfields, ih htable]

/-- A table with a field in each row is read as it was written. -/
theorem rows?_written {table : List (List Text)} (h : ∀ fields ∈ table, fields ≠ []) :
    rows? (table.flatMap Csv.row) = some table := by
  rw [rows?, read_rows h]
  rfl

end Csv

-- ---------------------------------------------------------------------------
-- Escapes
-- ---------------------------------------------------------------------------

def hexDigit (n : Nat) : CodePoint := CodePoint.ofNat (if n < 10 then 0x30 + n else 0x57 + n)

namespace Text

/-- The six characters that stand for a surrogate. -/
def surrogateForm (c : CodePoint) : Text :=
  [backslash, CodePoint.ofChar 'u', CodePoint.ofChar 'd', hexDigit (c.val / 256 % 16),
    hexDigit (c.val / 16 % 16), hexDigit (c.val % 16)]

/-- Each surrogate replaced by the characters that stand for it. -/
def escaped (t : Text) : Text := t.flatMap fun c => if c.isSurrogate then surrogateForm c else [c]

theorem ofChar_digitChar (n : Fin 16) : CodePoint.ofChar (Nat.digitChar n) = hexDigit n := by
  decide +revert

theorem hex_surrogate (h : c.isSurrogate = true) : "\\u" ++ hex 4 c.val = surrogateForm c := by
  simp only [CodePoint.isSurrogate, Bool.and_eq_true, decide_eq_true_eq] at h
  have hdigits : Nat.toDigits 16 c.val = [Nat.digitChar 13, Nat.digitChar (c.val / 256 % 16),
      Nat.digitChar (c.val / 16 % 16), Nat.digitChar (c.val % 16)] := by
    have hfirst : c.val / 16 / 16 / 16 = 13 := by omega
    have hsecond : c.val / 16 / 16 % 16 = c.val / 256 % 16 := by omega
    rw [Nat.toDigits_of_base_le (by omega) (by omega), Nat.toDigits_of_base_le (by omega) (by omega),
      Nat.toDigits_of_base_le (by omega) (by omega), Nat.toDigits_of_lt_base (by omega), hfirst, hsecond]
    rfl
  have hdigit (n : Nat) : CodePoint.ofChar (Nat.digitChar (n % 16)) = hexDigit (n % 16) :=
    ofChar_digitChar ⟨n % 16, Nat.mod_lt n (by decide)⟩
  rw [hex, hdigits]
  simp only [List.map_cons, List.map_nil, hdigit]
  rfl

theorem escapeSurrogates_eq (t : Text) : t.escapeSurrogates = t.escaped := by
  refine congrArg (List.flatMap · t) (funext fun c => ?_)
  split
  next hsurrogate => exact hex_surrogate hsurrogate
  next => rfl

theorem escaped_append (t u : Text) : (t ++ u).escaped = t.escaped ++ u.escaped :=
  List.flatMap_append

theorem escaped_cons (c : CodePoint) (t : Text) :
    escaped (c :: t) = (if c.isSurrogate then surrogateForm c else [c]) ++ escaped t :=
  List.flatMap_cons

theorem hexDigit_range (n : Fin 16) : 0x30 ≤ (hexDigit n).val ∧ (hexDigit n).val ≤ 0x66 := by
  decide +revert

/-- The characters of an escape are digits and letters, and the backslash. -/
theorem surrogateForm_range (h : x ∈ surrogateForm c) : 0x30 ≤ x.val ∧ x.val ≤ 0x75 := by
  have hdigit (n : Nat) : 0x30 ≤ (hexDigit (n % 16)).val ∧ (hexDigit (n % 16)).val ≤ 0x75 := by
    have := hexDigit_range ⟨n % 16, Nat.mod_lt n (by decide)⟩
    simp only at this
    omega
  simp only [surrogateForm, List.mem_cons, List.not_mem_nil, or_false] at h
  rcases h with rfl | rfl | rfl | rfl | rfl | rfl
  · decide
  · decide
  · decide
  · exact hdigit _
  · exact hdigit _
  · exact hdigit _

theorem isSurrogate_escaped {t : Text} : ∀ c ∈ t.escaped, c.isSurrogate = false := by
  intro x hx
  obtain ⟨c, -, hx⟩ := List.mem_flatMap.mp hx
  split at hx
  next =>
    have := surrogateForm_range hx
    exact Utf8.isSurrogate_eq_false.mpr (by omega)
  next hc =>
    cases List.mem_singleton.mp hx
    simpa using hc

end Text

namespace Csv

/-- All special characters come before the digits. -/
theorem isSpecial_of_le (h : 0x30 ≤ c.val) : isSpecial c = false := by
  cases hspecial : isSpecial c with
  | false => rfl
  | true =>
    simp only [isSpecial, Bool.or_eq_true, decide_eq_true_eq] at hspecial
    rcases hspecial with ((rfl | rfl) | rfl) | rfl <;> exact absurd h (by decide)

theorem any_isSpecial_escaped (t : Text) : t.escaped.any isSpecial = t.any isSpecial := by
  induction t with
  | nil => rfl
  | cons c t ih =>
    rw [Text.escaped_cons, List.any_append, ih, List.any_cons]
    cases hc : c.isSurrogate with
    | false => simp
    | true =>
      have hrange : 0x30 ≤ c.val := by
        simp only [CodePoint.isSurrogate, Bool.and_eq_true, decide_eq_true_eq] at hc
        omega
      have hform : (Text.surrogateForm c).any isSpecial = false :=
        List.any_eq_false.mpr fun x hx => by simp [isSpecial_of_le (Text.surrogateForm_range hx).1]
      simp [isSpecial_of_le hrange, hform]

theorem doubled_of_not_special (h : ∀ x ∈ t, isSpecial x = false) : doubled t = t := by
  induction t with
  | nil => rfl
  | cons c t ih =>
    obtain ⟨hc, ht⟩ := List.forall_mem_cons.mp h
    have hquote : c ≠ quotationMark := by
      rintro rfl
      cases hc
    simp only [doubled, List.flatMap_cons, if_neg hquote] at ih ⊢
    simp [ih ht]

theorem escaped_doubled (t : Text) : (doubled t).escaped = doubled t.escaped := by
  induction t with
  | nil => rfl
  | cons c t ih =>
    rw [Text.escaped_cons, doubled_append, ← ih, doubled_cons, Text.escaped_append]
    congr 1
    by_cases hquote : c = quotationMark
    · subst hquote
      rfl
    · cases hc : c.isSurrogate with
      | false => simp [Text.escaped, doubled, hc, hquote]
      | true =>
        have hform : ∀ x ∈ Text.surrogateForm c, isSpecial x = false :=
          fun x hx => isSpecial_of_le (Text.surrogateForm_range hx).1
        simp [Text.escaped, hc, hquote, doubled_of_not_special hform]

theorem escaped_field (t : Text) : (field t).escaped = field t.escaped := by
  rw [field_eq, field_eq, any_isSpecial_escaped]
  split
  next =>
    rw [Text.escaped_append, Text.escaped_cons, escaped_doubled]
    rfl
  next => rfl

theorem escaped_join (parts : List Text) :
    (Text.join [comma] parts).escaped = Text.join [comma] (parts.map Text.escaped) := by
  induction parts with
  | nil => rfl
  | cons part parts ih =>
    cases parts with
    | nil => simp [Text.join]
    | cons next parts =>
      simp only [Text.join, List.map_cons, List.intercalate_cons_cons, Text.escaped_append] at ih ⊢
      rw [ih]
      rfl

theorem escaped_row (fields : List Text) : (row fields).escaped = row (fields.map Text.escaped) := by
  rw [row, Text.escaped_append, escaped_join, row, List.map_map, List.map_map]
  have hfields : (Text.escaped ∘ field) = field ∘ Text.escaped := funext escaped_field
  rw [hfields]
  rfl

end Csv

-- ---------------------------------------------------------------------------
-- Reports
-- ---------------------------------------------------------------------------

namespace Report

/-- The rows of a report: a header, and a row for each finding. -/
def table (findings : List Finding) : List (List Text) :=
  [Text.ofString "caller", Text.ofString "callee"] ::
    findings.map fun f => [f.caller.escaped, f.callee.escaped]

theorem render_csv (findings : List Finding) :
    (render .csv findings).escapeSurrogates = (table findings).flatMap Csv.row := by
  rw [Text.escapeSurrogates_eq]
  simp only [render, Text.escaped_append, table, List.flatMap_cons]
  congr 1
  induction findings with
  | nil => rfl
  | cons f findings ih =>
    simp only [List.flatMap_cons, List.map_cons, Text.escaped_append, Csv.escaped_row, ih]
    rfl

/-- A report reads back as its text, since no surrogate is left. -/
theorem decode_encode (format : Format) (findings : List Finding) :
    Utf8.decode (encode format findings) = .ok (render format findings).escapeSurrogates := by
  refine Utf8.decode_eq_ok.mpr ⟨?_, rfl⟩
  rw [Text.escapeSurrogates_eq]
  exact Text.isSurrogate_escaped

theorem encode_csv (findings : List Finding) :
    ∃ text, Utf8.decode (encode .csv findings) = .ok text ∧ Csv.rows? text = some (table findings) := by
  refine ⟨_, decode_encode .csv findings, ?_⟩
  rw [render_csv]
  refine Csv.rows?_written fun fields hfields => ?_
  simp only [table, List.mem_cons, List.mem_map] at hfields
  rcases hfields with rfl | ⟨f, -, rfl⟩ <;> exact List.cons_ne_nil _ _

variable {σ : Type} [FileStore (StateM σ)]

/-- Findings that are written as comma-separated values can be read back. -/
theorem write_csv_readable (findings : List Finding) {path : Path} (d : Diagnostics) {t : Traced σ}
    (hname : FileName.Fits path.render)
    (hwritable : ∀ content, (FileStore.written path.render content t.state).1 = .ok ()) :
    ∃ bytes text d' t', (write findings path .csv).exec d t = ((.ok true, d'), t') ∧
      t'.writes = t.writes ++ [(path.render, bytes)] ∧
      Utf8.decode bytes = .ok text ∧ Csv.rows? text = some (table findings) := by
  obtain ⟨text, htext, hrows⟩ := encode_csv findings
  obtain ⟨d', hput, -⟩ := exec_put hname (encode .csv findings) d t
  rw [Traced.written_eq, hwritable] at hput
  refine ⟨_, text, _, _, Run.exec_bind_ok hput _, ?_, htext, hrows⟩
  rfl

/-- A caller with a quotation mark, a line end and a surrogate, and a callee with a comma. -/
theorem write_csv_readable_awkward :
    ∃ bytes text d' t',
      (write [⟨"A", Text.ofString "a\"b\r\n" ++ [CodePoint.ofNat 0xD800], ","⟩] (.ofText "r.csv")
        .csv).exec {} ({ state := {} } : Traced FileTree) = ((.ok true, d'), t') ∧
      t'.writes = [(Text.ofString "r.csv", bytes)] ∧ Utf8.decode bytes = .ok text ∧
      Csv.rows? text = some [[Text.ofString "caller", Text.ofString "callee"],
        [Text.ofString "a\"b\r\n\\ud800", ","]] :=
  have hname : FileName.Fits (Path.ofText "r.csv").render := by decide
  write_csv_readable _ {} hname fun _ => rfl

end Report

end Callsite
