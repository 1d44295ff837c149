import Callsite.Archive.Reading
import Callsite.Archive.Zip

/-!
# Errors of containers

Members are taken in their order, and the first error that one of them raises ends the reading of a
container. Where the error is handled the archive cannot be read, and where it is not the error escapes
(`Unreadable`, `Escapes`); nothing is assumed of the reader for this. What is expected of a reader is a
matter of its own (`Expected`).
-/

namespace Callsite

namespace Container

-- ---------------------------------------------------------------------------
-- First errors
-- ---------------------------------------------------------------------------

/-- The member is no directory and has the name of a class. -/
def Member.IsClass (m : Member) : Prop := m.isDirectory = .ok false ∧ m.name.endsWith ".class" = true

/-- The member is known not to be a class. -/
def Member.IsOther (m : Member) : Prop :=
  ∃ isDirectory, m.isDirectory = .ok isDirectory ∧
    (isDirectory = true ∨ m.name.endsWith ".class" = false)

/-- The first error that members raise, and where. Of members that are no classes the content is not
asked for. -/
inductive FirstError : List Member → Site → Error → Prop
  | kind (h : m.isDirectory = .error e) : FirstError (m :: rest) .kind e
  | content (hclass : m.IsClass) (h : m.content () = .error e) : FirstError (m :: rest) .content e
  | skipped (hother : m.IsOther) (h : FirstError rest site e) : FirstError (m :: rest) site e
  | read (hclass : m.IsClass) (hcontent : m.content () = .ok content) (h : FirstError rest site e) :
      FirstError (m :: rest) site e

/-- The error that ends the reading of a container. -/
inductive Raises (containers : Reader) (content : List UInt8) : Site → Error → Prop
  | opening (h : containers content = .error e) : Raises containers content .opening e
  | member (hopen : containers content = .ok members) (h : FirstError members site e) :
      Raises containers content site e

end Container

-- ---------------------------------------------------------------------------
-- Endings
-- ---------------------------------------------------------------------------

namespace Reading

open Container

variable {containers : Container.Reader} {content : List UInt8} {path : Path}

end Reading

-- ---------------------------------------------------------------------------
-- What is expected
-- ---------------------------------------------------------------------------

namespace Container

/-- The errors that are expected. Among those of the runtime is what is unsupported. -/
def Site.expected : Site → List ErrorKind
  | .opening => [.system, .badContainer, .unsupported, .encoding]
  | .kind => []
  | .content => [.system, .endOfFile, .runtime, .unsupported, .badContainer, .inflate, .encoding]

/-- Where members raise an error one of them does. -/
theorem FirstError.exists_member (h : FirstError members site e) :
    site = .kind ∧ (∃ m ∈ members, m.isDirectory = .error e) ∨
      site = .content ∧ ∃ m ∈ members, m.content () = .error e := by
  induction h with
  | kind h => exact .inl ⟨rfl, _, List.mem_cons_self, h⟩
  | content hclass h => exact .inr ⟨rfl, _, List.mem_cons_self, h⟩
  | skipped hother h ih | read hclass hcontent h ih =>
    rcases ih with ⟨rfl, m, hm, herror⟩ | ⟨rfl, m, hm, herror⟩
    · exact .inl ⟨rfl, m, List.mem_cons_of_mem _ hm, herror⟩
    · exact .inr ⟨rfl, m, List.mem_cons_of_mem _ hm, herror⟩

end Container

namespace Zip

open Container

theorem OpenFault.kind_mem (fault : OpenFault) : fault.kind ∈ Site.opening.expected := by
  cases fault <;> simp [kind, Site.expected]

theorem EntryFault.kind_mem (fault : EntryFault) :
    fault.kind ∈ Site.content.expected ∨ fault.kind = .other "ValueError" := by
  cases fault <;> simp [kind, Site.expected]

theorem kind_of_isDirectory (h : isDirectory refusesEmptyName name = .error e) :
    refusesEmptyName = true ∧ e.kind = .other "IndexError" := by
  rw [isDirectory] at h
  split at h
  next hempty =>
    cases h
    exact ⟨(Bool.and_eq_true_iff.mp hempty).1, rfl⟩
  next => cases h

theorem kind_of_content {entry : Member × Int}
    (h : (member refusesEmptyName data entry).content () = .error e) :
    e.kind ∈ Site.content.expected ∨ e.kind = .other "ValueError" := by
  rw [member] at h
  cases hread : readMember data entry.1 entry.2 with
  | ok content =>
    rw [hread] at h
    cases h
  | error fault =>
    rw [hread] at h
    cases h
    exact fault.kind_mem

/-- Zip archives raise what is expected of containers, but for offsets that no file has and, on some
platforms, for an empty name. -/
theorem raises_containers (h : Raises (containers refusesEmptyName) content site e) :
    e.kind ∈ site.expected ∨ site = .content ∧ e.kind = .other "ValueError" ∨
      refusesEmptyName = true ∧ site = .kind ∧ e.kind = .other "IndexError" := by
  cases harchive : openArchive content.toArray with
  | error fault =>
    have hopened : containers refusesEmptyName content = .error fault.error := by
      rw [containers, harchive]
    cases h with
    | opening hopen =>
      cases hopened.symm.trans hopen
      exact .inl fault.kind_mem
    | member hopen hfirst => cases hopened.symm.trans hopen
  | ok archive =>
    have hopened : containers refusesEmptyName content =
        .ok (archive.members.map (member refusesEmptyName archive.data)) := by
      rw [containers, harchive]
    cases h with
    | opening hopen => cases hopened.symm.trans hopen
    | member hopen hfirst =>
      cases hopened.symm.trans hopen
      rcases hfirst.exists_member with ⟨rfl, _, hmember, herror⟩ | ⟨rfl, _, hmember, herror⟩
      · obtain ⟨entry, -, rfl⟩ := List.mem_map.mp hmember
        obtain ⟨hrefuses, hkind⟩ := kind_of_isDirectory herror
        exact .inr (.inr ⟨hrefuses, rfl, hkind⟩)
      · obtain ⟨entry, -, rfl⟩ := List.mem_map.mp hmember
        exact (kind_of_content herror).imp_right fun hkind => .inl ⟨rfl, hkind⟩

end Zip

end Callsite
