import Callsite.Report

/-!
# Names of files

A text can be handed over as the name of a file when it holds no NUL, and no surrogates but those that
stand for single bytes. Paths are made of such texts, so the place of a report has a name when the
output directory, the archive and the package have. The text of a path leads back to the path.
-/

namespace Callsite

-- ---------------------------------------------------------------------------
-- Runs of surrogates
-- ---------------------------------------------------------------------------

theorem drop_length_takeWhile (p : α → Bool) (l : List α) :
    l.drop (l.takeWhile p).length = l.dropWhile p := by
  induction l with
  | nil => rfl
  | cons a l ih => cases h : p a <;> simp [h, ih]

theorem takeWhile_ne_nil_of_dropWhile {p : α → Bool} {l : List α}
    (h : l.dropWhile (!p ·) ≠ []) : (l.dropWhile (!p ·)).takeWhile p ≠ [] := by
  have hhead := List.head_dropWhile_not (!p ·) h
  cases hrest : l.dropWhile (!p ·) with
  | nil => exact absurd hrest h
  | cons a rest =>
    simp only [hrest, List.head_cons, Bool.not_eq_false'] at hhead
    simp [hhead]

theorem forall_surrogate_dropWhile {P : CodePoint → Prop} (t : Text) :
    (∀ c ∈ t.dropWhile (!·.isSurrogate), c.isSurrogate = true → P c) ↔
      ∀ c ∈ t, c.isSurrogate = true → P c := by
  induction t with
  | nil => rfl
  | cons c t ih => cases h : c.isSurrogate <;> simp [h, ih]

theorem Utf8.surrogateRunFrom?_eq_none {allowed : CodePoint → Bool} {t : Text}
    (hfuel : t.length ≤ fuel) : surrogateRunFrom? allowed fuel position t = none ↔
      ∀ c ∈ t, c.isSurrogate = true → allowed c = true := by
  induction fuel generalizing position t with
  | zero =>
    cases List.length_eq_zero_iff.mp (Nat.le_zero.mp hfuel)
    simp [surrogateRunFrom?]
  | succ fuel ih =>
    rw [surrogateRunFrom?, ← forall_surrogate_dropWhile t]
    simp only [drop_length_takeWhile]
    have hlength := (List.dropWhile_sublist (!CodePoint.isSurrogate ·) (l := t)).length_le
    have hrun := List.takeWhile_append_dropWhile (p := CodePoint.isSurrogate)
      (l := t.dropWhile (!·.isSurrogate))
    have hall : ∀ c ∈ (t.dropWhile (!·.isSurrogate)).takeWhile CodePoint.isSurrogate,
        c.isSurrogate = true := List.all_eq_true.mp List.all_takeWhile
    split
    next hnil =>
      have hrest : t.dropWhile (!·.isSurrogate) = [] :=
        Decidable.byContradiction fun h => takeWhile_ne_nil_of_dropWhile h hnil
      simp [hrest]
    next first more hcons =>
      have hpos := congrArg List.length hrun
      rw [List.length_append, hcons, List.length_cons] at hpos
      rw [← hrun, List.forall_mem_append, hrun]
      split
      next hallowed =>
        rw [ih (by omega)]
        simpa using fun _ c hc _ => List.all_eq_true.mp hallowed c hc
      next hrefused =>
        refine iff_of_false nofun fun h => hrefused ?_
        exact List.all_eq_true.mpr fun c hc => h.1 c hc (hall c hc)

-- ---------------------------------------------------------------------------
-- Names
-- ---------------------------------------------------------------------------

namespace FileName

/-- No NUL, and no surrogates but those that stand for single bytes. -/
def Fits (t : Text) : Prop := ∀ c ∈ t, c.val ≠ 0 ∧ (c.isSurrogate = true → isEscapedByte c = true)

theorem check_eq_ok : check t = .ok () ↔ Fits t := by
  have hrun : Utf8.surrogateRun? isEscapedByte t = none ↔
      ∀ c ∈ t, c.isSurrogate = true → isEscapedByte c = true :=
    Utf8.surrogateRunFrom?_eq_none (Nat.le_refl _)
  rw [check]
  split
  next run hsome =>
    refine iff_of_false nofun fun h => ?_
    rw [hrun.mpr fun c hc => (h c hc).2] at hsome
    cases hsome
  next hnone =>
    split
    next hnul =>
      obtain ⟨c, hc, hzero⟩ := List.any_eq_true.mp hnul
      exact iff_of_false nofun fun h => (h c hc).1 (of_decide_eq_true hzero)
    next hnul =>
      refine iff_of_true rfl fun c hc => ⟨fun hzero => ?_, hrun.mp hnone c hc⟩
      exact hnul (List.any_eq_true.mpr ⟨c, hc, decide_eq_true hzero⟩)

theorem fits_append : Fits (t ++ u) ↔ Fits t ∧ Fits u := List.forall_mem_append

theorem Fits.mono (h : Fits t) (hu : ∀ c ∈ u, c ∈ t) : Fits u := fun c hc => h c (hu c hc)

theorem Fits.replaceAll (h : Fits t) (hnew : Fits [new]) : Fits (t.replaceAll old new) := by
  intro c hc
  obtain ⟨b, hb, rfl⟩ := List.mem_map.mp hc
  split
  next => exact hnew new List.mem_cons_self
  next => exact h b hb

instance : Decidable (Fits t) := List.decidableBAll _ t

theorem fits_slash : Fits [CodePoint.ofChar '/'] := by decide +kernel

theorem fits_dot : Fits [CodePoint.ofChar '.'] := by decide +kernel

end FileName

open FileName

theorem fits_normalizePackage (h : Fits package) : Fits (normalizePackage package) :=
  fits_append.mpr ⟨by decide +kernel, h.replaceAll fits_slash⟩

theorem fits_packageLabel (h : Fits stem) : Fits (packageLabel stem) := by
  rw [packageLabel]
  split
  next => exact (h.mono fun c => List.mem_of_mem_drop).replaceAll fits_dot
  next => exact h.replaceAll fits_dot

-- ---------------------------------------------------------------------------
-- Paths
-- ---------------------------------------------------------------------------

theorem Text.mem_splitOn {t part : Text} (h : part ∈ t.splitOn separator) (hc : c ∈ part) :
    c ∈ t ∧ c ≠ separator := by
  rw [splitOn] at h
  induction t generalizing part c with
  | nil =>
    cases List.mem_singleton.mp h
    cases hc
  | cons a t ih =>
    rw [List.splitOn_cons_eq_if_modifyHead] at h
    split at h
    next =>
      rcases List.mem_cons.mp h with rfl | h
      · cases hc
      · exact (ih h hc).imp_left (List.mem_cons_of_mem a)
    next hne =>
      cases hsplit : List.splitOn separator t with
      | nil => exact absurd hsplit (List.splitOn_ne_nil separator t)
      | cons first rest =>
        rw [hsplit] at h ih
        rcases List.mem_cons.mp h with rfl | h
        · rcases List.mem_cons.mp hc with rfl | hc
          · exact ⟨List.mem_cons_self, by simpa using hne⟩
          · exact (ih List.mem_cons_self hc).imp_left (List.mem_cons_of_mem a)
        · exact (ih (List.mem_cons_of_mem first h) hc).imp_left (List.mem_cons_of_mem a)

theorem Text.mem_join {parts : List Text} :
    c ∈ join separator parts → c ∈ separator ∨ ∃ part ∈ parts, c ∈ part := by
  induction parts with
  | nil => nofun
  | cons part parts ih =>
    intro h
    cases parts with
    | nil => exact .inr ⟨part, List.mem_cons_self, by simpa [join] using h⟩
    | cons next parts =>
      rw [join, List.intercalate_cons_cons, List.mem_append, List.mem_append] at h
      rcases h with (h | h) | h
      · exact .inr ⟨part, List.mem_cons_self, h⟩
      · exact .inl h
      · exact (ih h).imp_right fun ⟨p, hp, hc⟩ => ⟨p, List.mem_cons_of_mem part hp, hc⟩

theorem Text.mem_join_of_mem {parts : List Text} (h : part ∈ parts) (hc : c ∈ part) :
    c ∈ join separator parts := by
  induction parts with
  | nil => cases h
  | cons first parts ih =>
    cases parts with
    | nil =>
      cases List.mem_singleton.mp h
      simpa [join] using hc
    | cons next parts =>
      rw [join, List.intercalate_cons_cons, List.mem_append, List.mem_append]
      rcases List.mem_cons.mp h with rfl | h
      · exact .inl (.inl hc)
      · exact .inr (ih h)

theorem Text.exists_join_cons (separator part : Text) (parts : List Text) :
    ∃ rest, join separator (part :: parts) = part ++ rest := by
  cases parts with
  | nil => exact ⟨[], by simp [join]⟩
  | cons next parts =>
    exact ⟨_, (List.intercalate_cons_cons).trans (List.append_assoc ..)⟩

namespace Path

/-- One part of a path. -/
def IsName (t : Text) : Prop := isPart t = true ∧ CodePoint.ofChar '/' ∉ t

/-- The parts are such as the text of a path has. -/
def Normal (p : Path) : Prop := ∀ part ∈ p.parts, IsName part

theorem normal_ofText (t : Text) : (ofText t).Normal := by
  intro part hpart
  obtain ⟨hsplit, hpart⟩ := List.mem_filter.mp hpart
  exact ⟨hpart, fun hslash => (Text.mem_splitOn hsplit hslash).2 rfl⟩

theorem render_ne_nil (p : Path) : p.render ≠ [] := by
  rw [render]
  split
  next => nofun
  next t ht => exact ht

section

variable {names : List Text}

theorem takeWhile_join (h : ∀ name ∈ names, IsName name) :
    (Text.join "/" names).takeWhile (· = CodePoint.ofChar '/') = [] := by
  cases names with
  | nil => rfl
  | cons name names =>
    obtain ⟨hpart, hslash⟩ := h name List.mem_cons_self
    obtain ⟨rest, hjoin⟩ := Text.exists_join_cons "/" name names
    cases name with
    | nil => cases hpart
    | cons c name =>
      rw [hjoin, List.cons_append, List.takeWhile_cons_of_neg]
      rw [List.mem_cons, not_or] at hslash
      simpa using Ne.symm hslash.1

theorem filter_splitOn_join (h : ∀ name ∈ names, IsName name) :
    ((Text.join "/" names).splitOn '/').filter isPart = names := by
  cases names with
  | nil => rfl
  | cons name names =>
    have hsplit : (Text.join "/" (name :: names)).splitOn '/' = name :: names :=
      List.splitOn_intercalate _ (fun part hpart => (h part hpart).2) (List.cons_ne_nil name names)
    rw [hsplit, List.filter_eq_self]
    exact fun part hpart => (h part hpart).1

end

/-- A slash in front adds an empty part only. -/
theorem filter_splitOn_slash (t : Text) :
    (Text.splitOn (CodePoint.ofChar '/' :: t) '/').filter isPart = (t.splitOn '/').filter isPart := by
  rw [Text.splitOn, List.splitOn_cons_eq_if_modifyHead, if_pos (beq_self_eq_true _)]
  rfl

/-- The text of a path leads back to the path. -/
theorem ofText_render {p : Path} (h : p.Normal) : ofText p.render = p := by
  obtain ⟨root, parts⟩ := p
  have hroot := takeWhile_join h
  have hparts := filter_splitOn_join h
  cases root with
  | relative =>
    cases parts with
    | nil => rfl
    | cons part parts =>
      have hrender : render ⟨.relative, part :: parts⟩ = Text.join "/" (part :: parts) := by
        obtain ⟨hpart, -⟩ := h part List.mem_cons_self
        obtain ⟨rest, hjoin⟩ := Text.exists_join_cons "/" part parts
        cases part with
        | nil => cases hpart
        | cons c part =>
          rw [render, hjoin]
          rfl
      rw [hrender, ofText, hparts, rootOf, hroot]
      rfl
  | slash =>
    have hrender : render ⟨.slash, parts⟩ = CodePoint.ofChar '/' :: Text.join "/" parts := rfl
    rw [hrender, ofText, filter_splitOn_slash, hparts, rootOf, List.takeWhile_cons_of_pos (by simp),
      hroot]
    rfl
  | doubleSlash =>
    have hrender : render ⟨.doubleSlash, parts⟩ =
        CodePoint.ofChar '/' :: CodePoint.ofChar '/' :: Text.join "/" parts := rfl
    rw [hrender, ofText, filter_splitOn_slash, filter_splitOn_slash, hparts, rootOf,
      List.takeWhile_cons_of_pos (by simp), List.takeWhile_cons_of_pos (by simp), hroot]
    rfl

theorem fits_root (root : PathRoot) : Fits root.render := by
  cases root <;> decide +kernel

theorem fits_render {p : Path} : Fits p.render ↔ ∀ part ∈ p.parts, Fits part := by
  have hjoin : Fits (p.root.render ++ Text.join "/" p.parts) ↔ ∀ part ∈ p.parts, Fits part := by
    rw [fits_append, and_iff_right (fits_root p.root)]
    constructor
    · intro h part hpart
      exact h.mono fun c => Text.mem_join_of_mem hpart
    · intro h c hc
      rcases Text.mem_join hc with hc | ⟨part, hpart, hc⟩
      · exact fits_slash c hc
      · exact h part hpart c hc
  rw [render]
  split
  next hnil =>
    rw [hnil] at hjoin
    exact iff_of_true fits_dot (hjoin.mp nofun)
  next => exact hjoin

theorem fits_render_ofText (h : Fits t) : Fits (ofText t).render := by
  refine fits_render.mpr fun part hpart => h.mono fun c hc => ?_
  exact (Text.mem_splitOn (List.mem_filter.mp hpart).1 hc).1

theorem fits_name {p : Path} (h : Fits p.render) : Fits p.name := by
  rw [name]
  cases hlast : p.parts.getLast? with
  | none => exact nofun
  | some part => exact fits_render.mp h part (List.mem_of_getLast? hlast)

theorem fits_render_child {p : Path} (h : Fits p.render) (hpart : Fits part) :
    Fits (p.child part).render := by
  rw [fits_render] at h ⊢
  exact List.forall_mem_append.mpr ⟨h, List.forall_mem_singleton.mpr hpart⟩

theorem fits_render_append {p : Path} (h : Fits p.render) (ht : Fits t) :
    Fits (p.append t).render := by
  have hnext := fits_render_ofText ht
  simp only [append]
  split
  next =>
    exact fits_render.mpr (List.forall_mem_append.mpr ⟨fits_render.mp h, fits_render.mp hnext⟩)
  next => exact hnext

end Path

theorem Format.fits_label (format : Format) : Fits (Text.ofString format.label) := by
  cases format <;> decide +kernel

/-- The place of a report has a name. -/
theorem Report.fits_path {output archive : Path} (houtput : Fits output.render)
    (harchive : Fits archive.render) (hstem : Fits stem) (format : Format) :
    Fits (Report.path output archive stem format.label).render := by
  refine Path.fits_render_append houtput ?_
  simp only [fits_append]
  exact ⟨⟨⟨⟨Path.fits_name harchive, by decide +kernel⟩, fits_packageLabel hstem⟩,
    by decide +kernel⟩, format.fits_label⟩

end Callsite
