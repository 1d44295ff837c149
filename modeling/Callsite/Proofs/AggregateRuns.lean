import Callsite.Proofs.Aggregation
import Mathlib.Data.Finset.Card

/-!
# Aggregates after a run

What an aggregate holds after any deliveries depends only on the findings delivered: in ordered mode it
is their stable sort by class, in unordered mode each of them once (`after_deliveries`).
-/

namespace Callsite

-- ---------------------------------------------------------------------------
-- The stable sort by class
-- ---------------------------------------------------------------------------

namespace Finding

/-- The class of the second finding has no lesser name. -/
def mayPrecede (f g : Finding) : Bool := !decide (g.callerClass < f.callerClass)

theorem mayPrecede_iff : mayPrecede f g ↔ ¬g.callerClass < f.callerClass := by
  simp [mayPrecede]

theorem mayPrecede_trans (f g h : Finding) (hfg : mayPrecede f g) (hgh : mayPrecede g h) :
    mayPrecede f h := by
  rw [mayPrecede_iff, List.not_lt] at *
  exact List.le_trans hfg hgh

theorem mayPrecede_total (f g : Finding) : mayPrecede f g || mayPrecede g f := by
  rw [Bool.or_eq_true, mayPrecede_iff, mayPrecede_iff, List.not_lt, List.not_lt]
  exact List.le_total ..

theorem sorted_mergeSort (findings : List Finding) : Sorted (findings.mergeSort mayPrecede) := by
  have hsorted := List.pairwise_mergeSort mayPrecede_trans mayPrecede_total findings
  exact hsorted.imp mayPrecede_iff.mp

/-- Sorting leaves the findings of each class in their order. -/
theorem ofClass_mergeSort (owner : Text) (findings : List Finding) :
    ofClass owner (findings.mergeSort mayPrecede) = ofClass owner findings := by
  have hpairwise : (ofClass owner findings).Pairwise fun f g => mayPrecede f g := by
    refine List.pairwise_of_forall_mem_list fun f hf g hg => mayPrecede_iff.mpr ?_
    rw [(mem_ofClass.mp hf).2, (mem_ofClass.mp hg).2]
    exact List.lt_irrefl _
  -- being sorted already, they stand in the sort as they stood before, and there are no others
  have hkept := List.sublist_mergeSort mayPrecede_trans mayPrecede_total hpairwise List.filter_sublist
  have hsublist : (ofClass owner findings).Sublist (ofClass owner (findings.mergeSort mayPrecede)) := by
    simpa [ofClass] using hkept.filter fun f => f.callerClass = owner
  refine (hsublist.eq_of_length ?_).symm
  exact ((List.mergeSort_perm findings mayPrecede).symm.filter _).length_eq

end Finding

namespace Aggregate

theorem toList_ordered (findings : List Finding) :
    ((empty .ordered).extend findings).toList = findings.mergeSort Finding.mayPrecede := by
  obtain ⟨groups, hgroups, hcollects⟩ := exists_groups findings
  rw [hgroups]
  refine hcollects.grouped.sorted.eq_of_ofClass (Finding.sorted_mergeSort findings) fun owner => ?_
  rw [hcollects.inOrder, Finding.ofClass_mergeSort]

-- ---------------------------------------------------------------------------
-- Sizes
-- ---------------------------------------------------------------------------

theorem foldl_size (groups : List Group) (n : Nat) :
    groups.foldl (fun n g => n + g.findings.size) n = n + (Group.contents groups).length := by
  induction groups generalizing n with
  | nil => rfl
  | cons g groups ih => simp [ih, Group.contents_cons, Nat.add_assoc]

theorem size_eq_length (a : Aggregate) : a.size = a.toList.length := by
  cases a with
  | ordered groups => exact (foldl_size groups 0).trans (Nat.zero_add _)
  | unordered distinct => rfl

/-- Without duplicates, an aggregate is as large as the set of what it holds. -/
theorem size_eq_card {a : Aggregate} {findings : List Finding} (hnodup : a.toList.Nodup)
    (h : ∀ f, f ∈ a.toList ↔ f ∈ findings) : a.size = findings.toFinset.card := by
  have hset : a.toList.toFinset = findings.toFinset := by
    ext f
    simp [h]
  rw [size_eq_length, ← hset, List.toFinset_card_of_nodup hnodup]

-- ---------------------------------------------------------------------------
-- Deliveries
-- ---------------------------------------------------------------------------

/-- One call that gives findings to an aggregate. -/
inductive Delivery
  | one (f : Finding)
  | many (findings : List Finding)

/-- The findings that a delivery gives, in their order. -/
def Delivery.findings : Delivery → List Finding
  | .one f => [f]
  | .many findings => findings

def deliver (a : Aggregate) : Delivery → Aggregate
  | .one f => a.add f
  | .many findings => a.extend findings

/-- A fresh aggregate after deliveries, one after the other. -/
def after (mode : Mode) (deliveries : List Delivery) : Aggregate :=
  deliveries.foldl deliver (empty mode)

/-- All findings given so far, in the order given. -/
def delivered (deliveries : List Delivery) : List Finding := deliveries.flatMap Delivery.findings

theorem deliver_eq (a : Aggregate) (delivery : Delivery) :
    a.deliver delivery = a.extend delivery.findings := by
  cases delivery <;> rfl

theorem foldl_deliver (a : Aggregate) (deliveries : List Delivery) :
    deliveries.foldl deliver a = a.extend (delivered deliveries) := by
  induction deliveries generalizing a with
  | nil => rfl
  | cons delivery deliveries ih =>
    rw [List.foldl_cons, ih, deliver_eq, ← extend_append]
    rfl

theorem after_eq (mode : Mode) (deliveries : List Delivery) :
    after mode deliveries = (empty mode).extend (delivered deliveries) := foldl_deliver ..

theorem mem_after (mode : Mode) (deliveries : List Delivery) :
    f ∈ (after mode deliveries).toList ↔ f ∈ delivered deliveries := by
  rw [after_eq, mem_extend_empty]

theorem nodup_after (deliveries : List Delivery) : (after .unordered deliveries).toList.Nodup := by
  rw [after_eq]
  exact nodup_extend .nil _

/-- After any deliveries an ordered aggregate holds the stable sort by class of all findings given, and
an unordered one each distinct finding once. Both hold the same findings, and it makes no difference
how these were split into deliveries. -/
theorem after_deliveries (deliveries : List Delivery) :
    ((after .ordered deliveries).toList = (delivered deliveries).mergeSort Finding.mayPrecede ∧
      (after .ordered deliveries).size = (delivered deliveries).length) ∧
    ((after .unordered deliveries).toList.Nodup ∧
      (∀ f, f ∈ (after .unordered deliveries).toList ↔ f ∈ delivered deliveries) ∧
      (after .unordered deliveries).size = (delivered deliveries).toFinset.card) ∧
    (∀ f, f ∈ (after .ordered deliveries).toList ↔ f ∈ (after .unordered deliveries).toList) ∧
    ∀ mode others, delivered others = delivered deliveries →
      after mode others = after mode deliveries := by
  have hsorted : (after .ordered deliveries).toList =
      (delivered deliveries).mergeSort Finding.mayPrecede := by
    rw [after_eq, toList_ordered]
  have hnodup := nodup_after deliveries
  refine ⟨⟨hsorted, ?_⟩, ⟨hnodup, fun f => mem_after .., ?_⟩, fun f => ?_, fun mode others h => ?_⟩
  · rw [size_eq_length, after_eq, length_ordered]
  · exact size_eq_card hnodup fun f => mem_after ..
  · rw [mem_after, mem_after]
  · rw [after_eq, after_eq, h]

/-- Findings of two classes that take turns, one of them given twice. -/
theorem after_deliveries_twice :
    let f : Finding := ⟨"B", "B.f()V", "X.g()V"⟩
    let g : Finding := ⟨"A", "A.f()V", "X.g()V"⟩
    (∀ mode, after mode [.many [f, g], .many [], .one f] = after mode [.one f, .many [g, f]]) ∧
      (after .ordered [.one f, .many [g, f]]).toList = [g, f, f] ∧
      (after .unordered [.one f, .many [g, f]]).size = 2 := by
  intro f g
  obtain ⟨-, ⟨-, -, hsize⟩, -, hsplit⟩ := after_deliveries [.one f, .many [g, f]]
  refine ⟨fun mode => hsplit mode _ ?_, by decide +kernel, ?_⟩
  · simp [delivered, Delivery.findings]
  · rw [hsize]
    decide +kernel

end Aggregate

end Callsite
