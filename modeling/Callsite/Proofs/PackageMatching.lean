import Callsite.Report
import Callsite.Proofs.Scanning

/-!
# Matching a package

A package is typed with dots or slashes. It is looked for as the start of owner signatures, with slashes
only, and shown with dots only. Both ways of writing it pick out the same owners: the signature of an
owner starts with the one exactly when its dotted name starts with the other, as long as the package has
no semicolon, which ends a signature, and the owner has no dot of its own.
-/

namespace Callsite

-- ---------------------------------------------------------------------------
-- Dots and slashes
-- ---------------------------------------------------------------------------

namespace Text

theorem startsWith_iff {t start : Text} : t.startsWith start = true ↔ start <+: t :=
  List.isPrefixOf_iff_prefix

theorem replaceAll_of_not_mem {t : Text} (h : old ∉ t) (new : CodePoint) :
    t.replaceAll old new = t := by
  induction t with
  | nil => rfl
  | cons c t ih =>
    rw [List.mem_cons, not_or] at h
    have hc : c ≠ old := Ne.symm h.1
    simp only [replaceAll, List.map_cons, if_neg hc] at ih ⊢
    rw [ih h.2]

/-- What is put in for a code point and then taken back need not be put in. -/
theorem replaceAll_replaceAll (t : Text) (a b : CodePoint) :
    (t.replaceAll a b).replaceAll b a = t.replaceAll b a := by
  rw [replaceAll, replaceAll, replaceAll, List.map_map]
  refine List.map_congr_left fun c _ => ?_
  by_cases ha : c = a
  · simp [ha]
  · simp [ha]

theorem mem_replaceAll {t : Text} (h : c ∈ t.replaceAll old new) : c ∈ t ∨ c = new := by
  obtain ⟨b, hb, rfl⟩ := List.mem_map.mp h
  split
  next => exact .inr rfl
  next => exact .inl hb

theorem replaceAll_prefix {t start : Text} (h : start <+: t) (old new : CodePoint) :
    start.replaceAll old new <+: t.replaceAll old new := h.map _

/-- A text without the new code point starts alike before and after a replacement. -/
theorem replaceAll_prefix_iff {t start : Text} (h : new ∉ t) :
    start.replaceAll old new <+: t.replaceAll old new ↔ start.replaceAll new old <+: t := by
  constructor
  · intro hprefix
    have hback := replaceAll_prefix hprefix new old
    rwa [replaceAll_replaceAll, replaceAll_replaceAll, replaceAll_of_not_mem h] at hback
  · intro hprefix
    have hforth := replaceAll_prefix hprefix old new
    rwa [replaceAll_replaceAll] at hforth

end Text

/-- A package is shown as it was typed, with dots for slashes. -/
theorem packageLabel_normalizePackage (package : Text) :
    packageLabel (normalizePackage package) = package.dotted :=
  package.replaceAll_replaceAll _ _

-- ---------------------------------------------------------------------------
-- Owners
-- ---------------------------------------------------------------------------

namespace MemberReference

variable {r : MemberReference} {package : Text}

/-- The signature of an array starts with no package, and that of a class with those that its name
starts with. -/
theorem startsWith_ownerSignature (h : CodePoint.ofChar ';' ∉ package) :
    r.ownerSignature.startsWith (normalizePackage package) = true ↔
      r.owner.startsWith "[" = false ∧ package.replaceAll '.' '/' <+: r.owner := by
  have hstem : normalizePackage package = CodePoint.ofChar 'L' :: package.replaceAll '.' '/' := rfl
  rw [ownerSignature, typeSignature, hstem, Text.startsWith_iff]
  split
  next harray =>
    obtain ⟨rest, hrest⟩ := Text.startsWith_iff.mp harray
    refine iff_of_false ?_ (by simp [harray])
    rw [← hrest]
    intro hprefix
    exact absurd (List.cons_prefix_cons.mp hprefix).1 (by decide)
  next hclass =>
    have hsignature : Text.ofString "L" ++ r.owner ++ Text.ofString ";" =
        CodePoint.ofChar 'L' :: (r.owner ++ [CodePoint.ofChar ';']) := rfl
    rw [hsignature, List.cons_prefix_cons, List.prefix_concat_iff]
    -- a package that reaches the end of the signature would hold the semicolon
    have hshort : package.replaceAll '.' '/' ≠ r.owner ++ [CodePoint.ofChar ';'] := by
      intro heq
      have hmem : CodePoint.ofChar ';' ∈ package.replaceAll '.' '/' := by simp [heq]
      rcases Text.mem_replaceAll hmem with hmem | hslash
      · exact h hmem
      · exact absurd hslash (by decide)
    simp [hshort, hclass]

theorem dotted_prefix_render (r : MemberReference) : r.owner.dotted <+: r.render := by
  rw [render, List.append_assoc, List.append_assoc]
  exact List.prefix_append _ _

theorem startsWith_render (h : package.replaceAll '.' '/' <+: r.owner) :
    r.render.startsWith package.dotted = true := by
  have hdotted := Text.replaceAll_prefix h '/' '.'
  rw [Text.replaceAll_replaceAll] at hdotted
  exact Text.startsWith_iff.mpr (hdotted.trans r.dotted_prefix_render)

end MemberReference

/-- A package means what was typed, with dots for slashes. An owner that matches it is no array, and its
members are shown with the package in front, as they are in the findings of the tools; a class without
dots in its internal name matches just when its dotted name starts so. -/
theorem package_matches_owners (package : Text) (h : CodePoint.ofChar ';' ∉ package) :
    packageLabel (normalizePackage package) = package.replaceAll '/' '.' ∧
    (∀ r : MemberReference, r.ownerSignature.startsWith (normalizePackage package) = true →
      r.owner.startsWith "[" = false ∧
        r.render.startsWith (packageLabel (normalizePackage package)) = true) ∧
    (∀ r : MemberReference, r.owner.startsWith "[" = false → CodePoint.ofChar '.' ∉ r.owner →
      (r.ownerSignature.startsWith (normalizePackage package) = true ↔
        (r.owner.replaceAll '/' '.').startsWith (packageLabel (normalizePackage package)) = true)) ∧
    ∀ tool ∈ [Tool.calls, Tool.fields], ∀ owner m instructions,
      ∀ f ∈ (tool (normalizePackage package)).find owner m instructions,
        f.callee.startsWith (packageLabel (normalizePackage package)) = true := by
  have hrender : ∀ r : MemberReference, r.ownerSignature.startsWith (normalizePackage package) = true →
      r.owner.startsWith "[" = false ∧ r.render.startsWith package.dotted = true := by
    intro r hmatch
    obtain ⟨hclass, hprefix⟩ := (MemberReference.startsWith_ownerSignature h).mp hmatch
    exact ⟨hclass, MemberReference.startsWith_render hprefix⟩
  rw [packageLabel_normalizePackage]
  refine ⟨rfl, hrender, fun r hclass hdot => ?_, fun tool htool owner m instructions f hf => ?_⟩
  · rw [MemberReference.startsWith_ownerSignature h, Text.startsWith_iff, Text.dotted,
      Text.replaceAll_prefix_iff hdot]
    exact and_iff_right hclass
  · obtain ⟨select, hfind⟩ : ∃ select,
        (tool (normalizePackage package)).find = Tool.references select (normalizePackage package) := by
      simp only [List.mem_cons, List.not_mem_nil, or_false] at htool
      rcases htool with rfl | rfl
      · exact ⟨_, rfl⟩
      · exact ⟨_, rfl⟩
    rw [hfind] at hf
    obtain ⟨r, -, hmatch, rfl⟩ := Tool.mem_references.mp hf
    exact (hrender r hmatch).2

/-- A package typed with both, which ends in the middle of a name. -/
theorem package_matches_owners_mixed :
    let package : Text := "com/acme.ut"
    let r : MemberReference := ⟨"com/acme/util/Log", "run", "()V"⟩
    CodePoint.ofChar ';' ∉ package ∧
      r.ownerSignature.startsWith (normalizePackage package) = true ∧
      r.render.startsWith "com.acme.ut" = true ∧
      (r.owner.replaceAll '/' '.').startsWith (packageLabel (normalizePackage package)) = true := by
  intro package r
  have hpackage : CodePoint.ofChar ';' ∉ package := by decide
  have hmatch : r.ownerSignature.startsWith (normalizePackage package) = true := by decide
  obtain ⟨-, hshown, howner, -⟩ := package_matches_owners package hpackage
  exact ⟨hpackage, hmatch, (hshown r hmatch).2, (howner r (by decide) (by decide)).mp hmatch⟩

/-- With a semicolon at its end a package picks out one class, but no member is shown so. -/
example : (MemberReference.mk "com/Log" "run" "()V").ownerSignature.startsWith
      (normalizePackage "com.Log;") = true ∧
    (MemberReference.mk "com/Log" "run" "()V").render.startsWith
      (packageLabel (normalizePackage "com.Log;")) = false := by decide

end Callsite
