import Callsite.Proofs.BatchCourse

/-!
# Reports in a file tree

Writing a file changes no directory of a tree, so that every path leads where it led before, and no
other file. An archive keeps what it holds as long as no report leads to its place.
-/

namespace Callsite

namespace FileTree

theorem find?_replaced {files : List (List Text × List UInt8)} (h : other ≠ key) :
    (files.map fun f => if f.1 = key then (key, content) else f).find? (·.1 = other) =
      files.find? (·.1 = other) := by
  induction files with
  | nil => rfl
  | cons f files ih =>
    rw [List.map_cons, List.find?_cons, List.find?_cons, ih]
    by_cases hf : f.1 = key
    · simp [hf, h.symm]
    · simp [hf]

theorem file?_setFile_of_ne (tree : FileTree) (content : List UInt8) (h : other ≠ key) :
    (tree.setFile key content).file? other = tree.file? other := by
  rw [setFile]
  split
  next => rw [file?, file?, find?_replaced h]
  next => simp [file?, List.find?_append, h.symm]

theorem directories_setFile (tree : FileTree) (key : List Text) (content : List UInt8) :
    (tree.setFile key content).directories = tree.directories := by
  rw [setFile]
  split
  next => rfl
  next => rfl

section

variable {a b : FileTree}

theorem isDirectory_eq (h : a.directories = b.directories) (key : List Text) :
    a.isDirectory key = b.isDirectory key := by
  rw [isDirectory, isDirectory, h]

/-- Where names lead depends on the directories alone. -/
theorem follow_eq_ok (h : a.directories = b.directories)
    (hplace : a.follow here names = .ok place) : b.follow here names = .ok place := by
  induction names generalizing here with
  | nil => exact hplace
  | cons name names ih =>
    rw [follow] at hplace ⊢
    rw [← isDirectory_eq h]
    grind

theorem locate_eq_ok (h : a.directories = b.directories) (hplace : a.locate path = .ok place) :
    b.locate path = .ok place := by
  simp only [locate] at hplace ⊢
  split at hplace
  next => cases hplace
  next hpath =>
    rw [if_neg hpath]
    split at hplace
    next => cases hplace
    next hlength =>
      rw [if_neg hlength]
      split at hplace
      next hroot => rwa [if_pos hroot]
      next hroot =>
        rw [if_neg hroot]
        exact follow_eq_ok h hplace

end

theorem write_eq_ok {tree : FileTree} (h : tree.write path content = .ok new) :
    ∃ key, tree.locate path = .ok (.inside key) ∧ new = tree.setFile key content := by
  rw [write] at h
  cases hplace : tree.locate path with
  | error code =>
    rw [hplace] at h
    cases h
  | ok place =>
    rw [hplace] at h
    cases place with
    | above => cases h
    | inside key =>
      simp only [bind, Except.bind] at h
      split at h
      next => cases h
      next =>
        cases h
        exact ⟨key, rfl, rfl⟩

/-- Writing fails, or puts the content where the path leads. -/
theorem written_cases (path : Text) (content : List UInt8) (tree : FileTree) :
    (FileStore.written path content tree).2 = tree ∨
      ∃ key, tree.locate path = .ok (.inside key) ∧
        (FileStore.written path content tree).2 = tree.setFile key content := by
  cases hwrite : tree.write path content with
  | error code =>
    refine .inl ?_
    simp only [FileStore.written, FileStore.write, StateT.run_bind, StateT.run_get, pure_bind, hwrite]
    rfl
  | ok new =>
    obtain ⟨key, hplace, rfl⟩ := write_eq_ok hwrite
    refine .inr ⟨key, hplace, ?_⟩
    simp only [FileStore.written, FileStore.write, StateT.run_bind, StateT.run_get, pure_bind, hwrite]
    rfl

variable {reports : List Path}

/-- The directories are the same, and so are the places that the files do not lead to. -/
structure Kept (reports : List Path) (tree t : FileTree) : Prop where
  directories : t.directories = tree.directories
  file? : ∀ key, (∀ report ∈ reports, tree.locate report.render ≠ .ok (.inside key)) →
    t.file? key = tree.file? key

theorem Kept.step {tree t u : FileTree} (h : Kept reports tree t)
    (hwrites : FileStore.Writes reports t u) : Kept reports tree u := by
  obtain ⟨report, hreport, content, rfl⟩ := hwrites
  rcases written_cases report.render content t with hsame | ⟨key, hplace, hset⟩
  · rwa [hsame]
  · rw [hset]
    refine ⟨(directories_setFile t key content).trans h.directories, fun other hother => ?_⟩
    -- The report leads where it led in the first tree, since the directories are still the same.
    have hne : other ≠ key := by
      rintro rfl
      exact hother report hreport (locate_eq_ok h.directories hplace)
    rw [file?_setFile_of_ne t content hne]
    exact h.file? other hother

theorem kept_of_writes {tree t : FileTree}
    (h : Relation.ReflTransGen (FileStore.Writes reports) tree t) : Kept reports tree t := by
  induction h with
  | refl => exact ⟨rfl, fun _ _ => rfl⟩
  | tail _ hwrites ih => exact ih.step hwrites

end FileTree

/-- An archive reads the same whatever is written to files that do not lead to its place. -/
theorem Reading.inStore_eq_of_writes {tree t : FileTree}
    (hwrites : Relation.ReflTransGen (FileStore.Writes reports) tree t)
    (hplace : tree.locate path.render = .ok (.inside key))
    (hapart : ∀ report ∈ reports, tree.locate report.render ≠ .ok (.inside key)) :
    inStore containers path t = inStore containers path tree := by
  have hkept := FileTree.kept_of_writes hwrites
  have hread : t.read path.render = tree.read path.render := by
    rw [FileTree.read, FileTree.read, hplace, FileTree.locate_eq_ok hkept.directories.symm hplace]
    simp only [bind, Except.bind]
    rw [FileTree.isDirectory_eq hkept.directories, hkept.file? key hapart]
  rw [inStore, inStore, ofPath]
  cases FileName.check path.render with
  | error fault => rfl
  | ok _ =>
    exact congrArg (fun content => ofFile containers path (content.mapError (⟨·, path.render⟩))) hread

end Callsite
