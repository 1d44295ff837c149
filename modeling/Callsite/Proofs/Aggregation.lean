import Callsite.Proofs.Grouping

/-!
# What aggregates hold

An aggregate holds what it was given and what it held before, which stays in its order. The findings of
an ordered aggregate are sorted by class, so they are known once the findings of each class are. With
fewer findings given, fewer are held, and those in the same order.
-/

namespace Callsite

-- ---------------------------------------------------------------------------
-- Kept findings
-- ---------------------------------------------------------------------------

namespace Aggregate

theorem sublist_add (a : Aggregate) (f : Finding) : a.toList.Sublist (a.add f).toList := by
  cases a with
  | ordered groups =>
    obtain ⟨before, after, hcontents, hinsert, -⟩ := Group.contents_insert f groups
    show (Group.contents groups).Sublist (Group.contents (Group.insert f groups))
    rw [hcontents, hinsert]
    exact (List.sublist_cons_self f after).append_left before
  | unordered distinct =>
    rw [add]
    split
    next => exact .refl _
    next => simp [toList]

theorem mem_add (a : Aggregate) (f : Finding) :
    g ∈ (a.add f).toList ↔ g ∈ a.toList ∨ g = f := by
  cases a with
  | ordered groups =>
    obtain ⟨before, after, hcontents, hinsert, -⟩ := Group.contents_insert f groups
    show g ∈ Group.contents (Group.insert f groups) ↔ g ∈ Group.contents groups ∨ g = f
    rw [hcontents, hinsert]
    grind
  | unordered distinct =>
    rw [add]
    split
    next hmem =>
      rw [Array.contains_iff_mem] at hmem
      simpa [toList] using fun h : g = f => h ▸ hmem
    next => simp [toList]

theorem sublist_extend (a : Aggregate) (findings : List Finding) :
    a.toList.Sublist (a.extend findings).toList := by
  induction findings generalizing a with
  | nil => exact .refl _
  | cons f findings ih => exact (a.sublist_add f).trans (ih (a.add f))

theorem mem_extend (a : Aggregate) (findings : List Finding) :
    g ∈ (a.extend findings).toList ↔ g ∈ a.toList ∨ g ∈ findings := by
  induction findings generalizing a with
  | nil => simp [extend]
  | cons f findings ih =>
    rw [List.mem_cons, ← or_assoc, ← a.mem_add f]
    exact ih (a.add f)

theorem mem_extend_empty (mode : Mode) (findings : List Finding) :
    g ∈ ((empty mode).extend findings).toList ↔ g ∈ findings := by
  rw [mem_extend]
  cases mode <;> simp [empty, toList]

theorem nodup_extend (h : distinct.toList.Nodup) (findings : List Finding) :
    ((unordered distinct).extend findings).toList.Nodup := by
  induction findings generalizing distinct with
  | nil => exact h
  | cons f findings ih =>
    show (((unordered distinct).add f).extend findings).toList.Nodup
    rw [add]
    split
    next => exact ih h
    next hmem =>
      rw [Array.contains_iff_mem, ← Array.mem_toList_iff] at hmem
      refine ih ?_
      rw [Array.toList_push, List.nodup_append]
      refine ⟨h, List.pairwise_singleton _ f, ?_⟩
      rintro x hx y hy rfl
      exact hmem (List.mem_singleton.mp hy ▸ hx)

end Aggregate

-- ---------------------------------------------------------------------------
-- Sorted findings
-- ---------------------------------------------------------------------------

namespace Finding

/-- No finding stands before one of a class with a lesser name. -/
def Sorted (findings : List Finding) : Prop :=
  findings.Pairwise fun f g => ¬g.callerClass < f.callerClass

theorem mem_ofClass : f ∈ ofClass owner findings ↔ f ∈ findings ∧ f.callerClass = owner := by
  simp [ofClass]

theorem mem_of_ofClass (h : ∀ owner, ofClass owner xs = ofClass owner ys) (hf : f ∈ xs) :
    f ∈ ys := by
  have hclass : f ∈ ofClass f.callerClass xs := mem_ofClass.mpr ⟨hf, rfl⟩
  rw [h] at hclass
  exact (mem_ofClass.mp hclass).1

/-- The first of sorted findings is of the least class. -/
theorem Sorted.not_lt (h : Sorted (f :: findings)) (hg : g ∈ f :: findings) :
    ¬g.callerClass < f.callerClass := by
  rcases List.mem_cons.mp hg with rfl | hg
  · exact List.lt_irrefl _
  · exact (List.pairwise_cons.mp h).1 g hg

theorem ofClass_cons (owner : Text) (f : Finding) (findings : List Finding) :
    ofClass owner (f :: findings) =
      if f.callerClass = owner then f :: ofClass owner findings else ofClass owner findings := by
  simp [ofClass, List.filter_cons]

/-- Sorted findings are the same if those of each class are, in their order. -/
theorem Sorted.eq_of_ofClass (hx : Sorted xs) (hy : Sorted ys)
    (h : ∀ owner, ofClass owner xs = ofClass owner ys) : xs = ys := by
  induction xs generalizing ys with
  | nil =>
    cases ys with
    | nil => rfl
    | cons y ys => cases mem_of_ofClass (fun owner => (h owner).symm) List.mem_cons_self
  | cons x xs ih =>
    cases ys with
    | nil => cases mem_of_ofClass h List.mem_cons_self
    | cons y ys =>
      have hle := hy.not_lt (mem_of_ofClass h List.mem_cons_self)
      have hge := hx.not_lt (mem_of_ofClass (fun owner => (h owner).symm) List.mem_cons_self)
      have hclass : y.callerClass = x.callerClass :=
        (List.le_iff_lt_or_eq.mp (List.not_lt.mp hle)).resolve_left hge
      have hfirst := h x.callerClass
      rw [ofClass_cons, ofClass_cons, if_pos rfl, if_pos hclass, List.cons.injEq] at hfirst
      obtain ⟨rfl, -⟩ := hfirst
      refine congrArg _ (ih (List.pairwise_cons.mp hx).2 (List.pairwise_cons.mp hy).2 fun owner => ?_)
      have howner := h owner
      rw [ofClass_cons, ofClass_cons] at howner
      split at howner
      next => exact (List.cons.inj howner).2
      next => exact howner

end Finding

theorem Group.Grouped.sorted (h : Grouped groups) : Finding.Sorted (contents groups) := by
  induction h with
  | nil => exact .nil
  | cons g own ascends rest ih =>
    rw [contents_cons]
    refine List.pairwise_append.mpr ⟨?_, ih, ?_⟩
    · refine List.pairwise_of_forall_mem_list fun f hf f' hf' => ?_
      rw [own f hf, own f' hf']
      exact List.lt_irrefl _
    · intro f hf f' hf'
      rw [own f hf]
      exact List.lt_asymm (rest.lt_contents ascends f' hf')

namespace Aggregate

theorem exists_groups (findings : List Finding) :
    ∃ groups, ((empty .ordered).extend findings).toList = Group.contents groups ∧
      Group.Collects findings groups := by
  obtain ⟨groups, hextend, hcollects⟩ := extend_collects Group.collects_nil findings
  exact ⟨groups, congrArg toList hextend, hcollects⟩

theorem length_ordered (findings : List Finding) :
    ((empty .ordered).extend findings).toList.length = findings.length := by
  obtain ⟨groups, hgroups, hcollects⟩ := exists_groups findings
  rw [hgroups, hcollects.perm.length_eq]

/-- The order in which findings of different classes are given makes no difference. -/
theorem ordered_eq_of_ofClass (h : ∀ owner, Finding.ofClass owner xs = Finding.ofClass owner ys) :
    ((empty .ordered).extend xs).toList = ((empty .ordered).extend ys).toList := by
  obtain ⟨groups, hxs, hx⟩ := exists_groups xs
  obtain ⟨groups', hys, hy⟩ := exists_groups ys
  rw [hxs, hys]
  refine hx.grouped.sorted.eq_of_ofClass hy.grouped.sorted fun owner => ?_
  rw [hx.inOrder, hy.inOrder, h]

end Aggregate

-- ---------------------------------------------------------------------------
-- Fewer findings
-- ---------------------------------------------------------------------------

namespace Group

/-- In good order, a new finding stands behind all findings of its own and of lesser classes. -/
theorem Grouped.contents_insert_eq (h : Grouped groups) (f : Finding) :
    contents (Group.insert f groups) =
      (contents groups).filter (fun x => ¬f.callerClass < x.callerClass) ++
        f :: (contents groups).filter (fun x => f.callerClass < x.callerClass) := by
  obtain ⟨before, after, hcontents, hinsert, hafter⟩ := contents_insert f groups
  have hsorted := (h.insert f).sorted
  rw [hinsert] at hsorted
  obtain ⟨-, hback, hcross⟩ := List.pairwise_append.mp hsorted
  have hbefore : ∀ x ∈ before, ¬f.callerClass < x.callerClass :=
    fun x hx => hcross x hx f List.mem_cons_self
  have hgreater : ∀ x ∈ after, f.callerClass < x.callerClass := by
    intro x hx
    have hle := List.not_lt.mp ((List.pairwise_cons.mp hback).1 x hx)
    exact (List.le_iff_lt_or_eq.mp hle).resolve_right (Ne.symm (hafter h x hx))
  have hlow : (before ++ after).filter (fun x => ¬f.callerClass < x.callerClass) = before := by
    rw [List.filter_append, List.filter_eq_self.mpr (by simpa using hbefore),
      List.filter_eq_nil_iff.mpr (by simpa using hgreater), List.append_nil]
  have hhigh : (before ++ after).filter (fun x => f.callerClass < x.callerClass) = after := by
    rw [List.filter_append, List.filter_eq_nil_iff.mpr (by simpa using hbefore),
      List.filter_eq_self.mpr (by simpa using hgreater), List.nil_append]
  rw [hinsert, hcontents, hlow, hhigh]

theorem Grouped.sublist_insert (h : Grouped groups) (h' : Grouped groups')
    (hsub : (contents groups).Sublist (contents groups')) (f : Finding) :
    (contents (Group.insert f groups)).Sublist (contents (Group.insert f groups')) := by
  rw [h.contents_insert_eq, h'.contents_insert_eq]
  exact (hsub.filter _).append ((hsub.filter _).cons_cons f)

end Group

namespace Aggregate

/-- Findings that are left out leave the others in their order. -/
theorem ordered_sublist (h : Group.Grouped groups) (h' : Group.Grouped groups')
    (hsub : (Group.contents groups).Sublist (Group.contents groups')) (hfindings : xs.Sublist ys) :
    ((ordered groups).extend xs).toList.Sublist ((ordered groups').extend ys).toList := by
  induction hfindings generalizing groups groups' with
  | slnil => exact hsub
  | cons f rest ih => exact ih h (h'.insert f) (hsub.trans (sublist_add (.ordered groups') f))
  | cons_cons f rest ih => exact ih (h.insert f) (h'.insert f) (h.sublist_insert h' hsub f)

theorem extend_sublist (hfindings : xs.Sublist ys) :
    ((empty .ordered).extend xs).toList.Sublist ((empty .ordered).extend ys).toList :=
  ordered_sublist .nil .nil .slnil hfindings

theorem extend_subset (a : Aggregate) (hfindings : xs ⊆ ys) :
    (a.extend xs).toList ⊆ (a.extend ys).toList := by
  intro f hf
  rw [mem_extend] at hf ⊢
  exact hf.imp_right fun hmem => hfindings hmem

end Aggregate

end Callsite
