import Callsite.Aggregate

/-!
# Grouping findings

The groups of an ordered aggregate ascend strictly, and each holds findings of its own class. Adding
a finding keeps this, adds nothing else, and puts the finding behind the others of its class.
-/

namespace Callsite

namespace Finding

/-- The findings in methods of one class, in their order. -/
def ofClass (owner : Text) (findings : List Finding) : List Finding :=
  findings.filter fun f => f.callerClass = owner

theorem ofClass_append (owner : Text) (xs ys : List Finding) :
    ofClass owner (xs ++ ys) = ofClass owner xs ++ ofClass owner ys := List.filter_append ..

/-- A finding may change places with findings of other classes. -/
theorem ofClass_swap (owner : Text) (h : ∀ x ∈ xs, x.callerClass ≠ f.callerClass) :
    ofClass owner (f :: xs) = ofClass owner (xs ++ [f]) := by
  rw [← List.singleton_append, ofClass_append, ofClass_append]
  by_cases hf : f.callerClass = owner
  · have hnone : ofClass owner xs = [] := by
      refine List.filter_eq_nil_iff.mpr fun x hx => ?_
      simpa [hf] using h x hx
    rw [hnone, List.append_nil, List.nil_append]
  · have hnone : ofClass owner [f] = [] := List.filter_cons_of_neg (by simpa using hf)
    rw [hnone, List.append_nil, List.nil_append]

end Finding

namespace Group

def contents (groups : List Group) : List Finding := groups.flatMap fun g => g.findings.toList

theorem contents_cons (g : Group) (groups : List Group) :
    contents (g :: groups) = g.findings.toList ++ contents groups := List.flatMap_cons

/-- The groups ascend, and each holds findings of its own class. -/
inductive Grouped : List Group → Prop
  | nil : Grouped []
  | cons (g : Group) (own : ∀ f ∈ g.findings.toList, f.callerClass = g.callerClass)
      (ascends : ∀ h ∈ groups, g.callerClass < h.callerClass) (rest : Grouped groups) :
      Grouped (g :: groups)

theorem Grouped.lt_contents (h : Grouped groups) (hg : ∀ g ∈ groups, owner < g.callerClass) :
    ∀ f ∈ contents groups, owner < f.callerClass := by
  induction h with
  | nil => nofun
  | cons g own ascends rest ih =>
    intro f hf
    rw [contents_cons] at hf
    rcases List.mem_append.mp hf with hf | hf
    · exact own f hf ▸ hg g List.mem_cons_self
    · exact ih (fun g' hg' => hg g' (List.mem_cons_of_mem g hg')) f hf

-- ---------------------------------------------------------------------------
-- One finding more
-- ---------------------------------------------------------------------------

theorem forall_insert {P : Text → Prop} (hf : P f.callerClass)
    (hg : ∀ g ∈ groups, P g.callerClass) : ∀ g ∈ insert f groups, P g.callerClass := by
  induction groups with
  | nil => simpa [insert] using hf
  | cons g rest ih =>
    obtain ⟨hfirst, hrest⟩ := List.forall_mem_cons.mp hg
    simp only [insert]
    split
    · exact List.forall_mem_cons.mpr ⟨hfirst, hrest⟩
    · split
      · exact List.forall_mem_cons.mpr ⟨hf, hg⟩
      · exact List.forall_mem_cons.mpr ⟨hfirst, ih hrest⟩

theorem Grouped.insert (h : Grouped groups) (f : Finding) : Grouped (insert f groups) := by
  have hsingle : ∀ x ∈ (#[f] : Array Finding).toList, x.callerClass = f.callerClass := by simp
  induction h with
  | nil => exact .cons ⟨f.callerClass, #[f]⟩ hsingle nofun .nil
  | @cons groups g own ascends rest ih =>
    simp only [Group.insert]
    split
    next heq =>
      refine .cons { g with findings := g.findings.push f } ?_ ascends rest
      intro x hx
      rcases List.mem_append.mp (Array.toList_push ▸ hx) with hx | hx
      · exact own x hx
      · exact List.mem_singleton.mp hx ▸ heq
    next hne =>
      split
      next hlt =>
        refine .cons ⟨f.callerClass, #[f]⟩ hsingle ?_ (.cons g own ascends rest)
        exact List.forall_mem_cons.mpr ⟨hlt, fun g' hg' => List.lt_trans hlt (ascends g' hg')⟩
      next hge =>
        have hgt : g.callerClass < f.callerClass :=
          (List.le_iff_lt_or_eq.mp (List.not_lt.mp hge)).resolve_right (Ne.symm hne)
        exact .cons g own (forall_insert hgt ascends) ih

/-- The new finding comes between the others, and in good order behind all others of its class. -/
theorem contents_insert (f : Finding) (groups : List Group) :
    ∃ before after, contents groups = before ++ after ∧
      contents (insert f groups) = before ++ f :: after ∧
      (Grouped groups → ∀ x ∈ after, x.callerClass ≠ f.callerClass) := by
  induction groups with
  | nil => exact ⟨[], [], rfl, rfl, nofun⟩
  | cons g groups ih =>
    simp only [insert]
    split
    next heq =>
      refine ⟨g.findings.toList, contents groups, contents_cons g groups, ?_, ?_⟩
      · rw [contents_cons, Array.toList_push, List.append_assoc, List.singleton_append]
      · rintro (_ | ⟨_, own, ascends, rest⟩) x hx
        exact heq ▸ Ne.symm (Std.ne_of_lt (rest.lt_contents ascends x hx))
    next hne =>
      split
      next hlt =>
        refine ⟨[], contents (g :: groups), rfl, rfl, fun h x hx => ?_⟩
        have hall : ∀ g' ∈ g :: groups, f.callerClass < g'.callerClass := by
          cases h with
          | cons _ own ascends rest =>
            exact List.forall_mem_cons.mpr ⟨hlt, fun g' hg' => List.lt_trans hlt (ascends g' hg')⟩
        exact Ne.symm (Std.ne_of_lt (h.lt_contents hall x hx))
      next hge =>
        obtain ⟨before, after, hcontents, hinsert, hafter⟩ := ih
        refine ⟨g.findings.toList ++ before, after, ?_, ?_, ?_⟩
        · rw [contents_cons, hcontents, List.append_assoc]
        · rw [contents_cons, hinsert, List.append_assoc]
        · rintro (_ | ⟨_, own, ascends, rest⟩)
          exact hafter rest

/-- What groups are after the given findings have been added one by one. -/
structure Collects (found : List Finding) (groups : List Group) : Prop where
  grouped : Grouped groups
  perm : (contents groups).Perm found
  inOrder : ∀ owner, Finding.ofClass owner (contents groups) = Finding.ofClass owner found

theorem collects_nil : Collects [] [] := ⟨.nil, .nil, fun _ => rfl⟩

theorem Collects.insert (h : Collects found groups) (f : Finding) :
    Collects (found ++ [f]) (Group.insert f groups) := by
  obtain ⟨before, after, hcontents, hinsert, hafter⟩ := contents_insert f groups
  refine ⟨h.grouped.insert f, ?_, fun owner => ?_⟩
  · have hmiddle : (before ++ f :: after).Perm (f :: contents groups) :=
      hcontents ▸ List.perm_middle
    rw [hinsert]
    exact (hmiddle.trans (h.perm.cons f)).trans (List.perm_append_singleton f found).symm
  · rw [Finding.ofClass_append, ← h.inOrder owner, hcontents, hinsert, Finding.ofClass_append,
      Finding.ofClass_swap owner (hafter h.grouped), ← Finding.ofClass_append, ← Finding.ofClass_append,
      List.append_assoc]

end Group

namespace Aggregate

theorem extend_append (a : Aggregate) (xs ys : List Finding) :
    a.extend (xs ++ ys) = (a.extend xs).extend ys := List.foldl_append

theorem extend_collects (h : Group.Collects found groups) (more : List Finding) :
    ∃ after, (ordered groups).extend more = .ordered after ∧
      Group.Collects (found ++ more) after := by
  induction more generalizing found groups with
  | nil => exact ⟨groups, rfl, by simpa using h⟩
  | cons f more ih =>
    obtain ⟨after, hextend, hcollects⟩ := ih (h.insert f)
    exact ⟨after, hextend, by simpa using hcollects⟩

end Aggregate

end Callsite
