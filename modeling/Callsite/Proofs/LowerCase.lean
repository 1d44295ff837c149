import Callsite.Settings
import Mathlib.Data.List.DropRight

/-!
# Lower case of lower case

What lower-casing gives it leaves alone: no run of the table covers a code point that a run leads to.
Extensions that are normalized can thus be normalized again.
-/

namespace Callsite

-- ---------------------------------------------------------------------------
-- The table
-- ---------------------------------------------------------------------------

namespace CodePoint

namespace CaseRun

/-- Where the run leads a code point that it covers. -/
def target (run : CaseRun) (n : Nat) : Nat := (n + run.shift).toNat

/-- Checks that the run leads to no code point that the other covers. Few runs come near each other, so
the ends are compared first. -/
def apart (run other : CaseRun) : Bool :=
  Nat.blt (run.target run.last) other.first || Nat.blt other.last (run.target run.first) ||
    (List.range (run.last + 1 - run.first)).all fun i =>
      !run.covers (run.first + i) || !other.covers (run.target (run.first + i))

theorem target_mono (run : CaseRun) (h : n ≤ n') : run.target n ≤ run.target n' := by
  rw [target, target]
  omega

theorem le_of_covers {run : CaseRun} (h : run.covers n = true) : run.first ≤ n ∧ n ≤ run.last := by
  simp only [covers, Bool.and_eq_true, decide_eq_true_eq] at h
  exact h.1

theorem not_covers_of_apart {run other : CaseRun} (h : run.apart other = true)
    (hn : run.covers n = true) : other.covers (run.target n) = false := by
  obtain ⟨hfirst, hlast⟩ := le_of_covers hn
  rw [← Bool.not_eq_true]
  intro hcovers
  obtain ⟨hfirst', hlast'⟩ := le_of_covers hcovers
  have hlow := run.target_mono hfirst
  have hhigh := run.target_mono hlast
  simp only [apart, Bool.or_eq_true, Nat.blt_eq, List.all_eq_true, List.mem_range] at h
  rcases h with (hbelow | habove) | hbetween
  · omega
  · omega
  · have hnot := hbetween (n - run.first) (by omega)
    simp [Nat.add_sub_cancel' hfirst, hn, hcovers] at hnot

end CaseRun

/-- The code points that have a lower case of their own kind, as runs. -/
def specialRuns : List CaseRun := [⟨0x130, 0x130, 1, 0⟩, ⟨0x3A3, 0x3A3, 1, 0⟩]

theorem lowerRuns_apart :
    (lowerRuns.all fun run => (specialRuns ++ lowerRuns).all run.apart) = true := by decide +kernel

theorem lowerRuns_bounded : ∀ run ∈ lowerRuns, run.target run.last < 0x110000 := by decide +kernel

-- ---------------------------------------------------------------------------
-- Code points
-- ---------------------------------------------------------------------------

/-- Lower-casing leaves the code point alone wherever it stands. -/
def Lowered (c : CodePoint) : Prop := c ≠ capitalSigma ∧ c.lower = [c]

instance (c : CodePoint) : Decidable c.Lowered := inferInstanceAs (Decidable (_ ∧ _))

theorem lowered_of_not_covered {c : CodePoint}
    (h : ∀ run ∈ specialRuns ++ lowerRuns, run.covers c.val = false) : c.Lowered := by
  rw [List.forall_mem_append] at h
  obtain ⟨hspecial, hruns⟩ := h
  have hdot : c.val ≠ 0x130 := by
    intro heq
    have hcovers := hspecial ⟨0x130, 0x130, 1, 0⟩ List.mem_cons_self
    rw [heq] at hcovers
    exact absurd hcovers (by decide)
  refine ⟨?_, ?_⟩
  · rintro rfl
    exact absurd (hspecial ⟨0x3A3, 0x3A3, 1, 0⟩ (by simp [specialRuns])) (by decide)
  · have hfind : lowerRuns.find? (·.covers c.val) = none := by simpa using hruns
    rw [lower, if_neg hdot, hfind]

theorem lowered_target {run : CaseRun} (hrun : run ∈ lowerRuns) (hn : run.covers n = true) :
    (CodePoint.ofNat (run.target n)).Lowered := by
  have hle : run.target n ≤ run.target run.last := run.target_mono (CaseRun.le_of_covers hn).2
  have hval : (CodePoint.ofNat (run.target n)).val = run.target n :=
    Nat.mod_eq_of_lt (Nat.lt_of_le_of_lt hle (lowerRuns_bounded run hrun))
  refine lowered_of_not_covered fun other hother => ?_
  have hapart := List.all_eq_true.mp (List.all_eq_true.mp lowerRuns_apart run hrun) other hother
  rw [hval]
  exact CaseRun.not_covers_of_apart hapart hn

theorem lowered_of_mem_lower {c : CodePoint} (hc : c ≠ capitalSigma) (hd : d ∈ c.lower) :
    d.Lowered := by
  rw [lower] at hd
  split at hd
  next =>
    have hboth : (CodePoint.ofNat 0x69).Lowered ∧ (CodePoint.ofNat 0x307).Lowered := by decide +kernel
    rcases List.mem_pair.mp hd with rfl | rfl
    · exact hboth.1
    · exact hboth.2
  next hdot =>
    split at hd
    next run hfind =>
      obtain rfl := List.mem_singleton.mp hd
      have hcovers := List.find?_some hfind
      exact lowered_target (List.mem_of_find?_eq_some hfind) hcovers
    next hfind =>
      obtain rfl := List.mem_singleton.mp hd
      refine ⟨hc, ?_⟩
      rw [lower, if_neg hdot, hfind]

end CodePoint

-- ---------------------------------------------------------------------------
-- Texts
-- ---------------------------------------------------------------------------

namespace Text

theorem lowered_lowerSigma (before after : Text) : (lowerSigma before after).Lowered := by
  have hboth : finalSigma.Lowered ∧ smallSigma.Lowered := by decide +kernel
  rw [lowerSigma]
  split
  next => exact hboth.1
  next => exact hboth.2

theorem lowered_of_mem_lowerAfter {t : Text} (h : d ∈ lowerAfter before t) : d.Lowered := by
  induction t generalizing before with
  | nil => cases h
  | cons c after ih =>
    rw [lowerAfter, List.mem_append] at h
    rcases h with hfirst | hrest
    · split at hfirst
      next =>
        obtain rfl := List.mem_singleton.mp hfirst
        exact lowered_lowerSigma before after
      next hc => exact CodePoint.lowered_of_mem_lower hc hfirst
    · exact ih hrest

theorem lowerAfter_of_lowered {t : Text} (h : ∀ c ∈ t, c.Lowered) (before : Text) :
    lowerAfter before t = t := by
  induction t generalizing before with
  | nil => rfl
  | cons c after ih =>
    obtain ⟨⟨hc, hlower⟩, hafter⟩ := List.forall_mem_cons.mp h
    rw [lowerAfter, if_neg hc, hlower, ih hafter]
    rfl

end Text

/-- To normalize an extension once is enough. -/
theorem Settings.normalizeExtension_normalizeExtension (t : Text) :
    normalizeExtension (normalizeExtension t) = normalizeExtension t := by
  have hlowered : ∀ c ∈ normalizeExtension t, c.Lowered := fun c hc =>
    Text.lowered_of_mem_lowerAfter ((List.dropWhile_suffix _).subset hc)
  rw [normalizeExtension, Text.lower, Text.lowerAfter_of_lowered hlowered]
  exact List.dropWhile_idempotent _ _

end Callsite
