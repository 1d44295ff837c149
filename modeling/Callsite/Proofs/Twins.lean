import Callsite.Proofs.Locality

/-!
# Two runs side by side

Two runs are alike when both stop with a fault, or when both succeed with related results and the same
bytes left. `Twins` says so of two decoders on two inputs. A local decoder is its own twin; before a
difference in the input both runs read the same, and behind it nothing is left to tell them apart but
what they have found.
-/

namespace Callsite

namespace Cursor

/-- The given bytes come next, and nothing after them. -/
def FacesOnly (c : Cursor) (input : List UInt8) : Prop :=
  ∃ front, front.length = c.offset ∧ c.data.toList = front ++ input

theorem FacesOnly.faces {c : Cursor} (h : c.FacesOnly (bytes ++ more)) : c.Faces bytes := by
  obtain ⟨front, hf, hd⟩ := h
  exact ⟨front, more, hf, hd⟩

theorem FacesOnly.faces_nil {c : Cursor} (h : c.FacesOnly input) : c.Faces [] :=
  FacesOnly.faces (by rwa [List.nil_append])

theorem FacesOnly.inside {c : Cursor} (h : c.FacesOnly input) : c.Inside :=
  h.faces_nil.inside

theorem FacesOnly.advance {c : Cursor} {bytes more : List UInt8} (h : c.FacesOnly (bytes ++ more)) :
    (c.advance bytes.length).FacesOnly more := by
  obtain ⟨front, hf, hd⟩ := h
  exact ⟨front ++ bytes, by simp [hf], by simp [hd]⟩

theorem FacesOnly.split {c : Cursor} (h : c.FacesOnly input) (hb : c.Faces bytes) :
    ∃ rest, input = bytes ++ rest := by
  obtain ⟨front, hf, hd⟩ := h
  obtain ⟨front', tail, hf', hd'⟩ := hb
  rw [hd] at hd'
  exact ⟨tail, (List.append_inj hd' (hf.trans hf'.symm)).2⟩

end Cursor

namespace Decoder

/-- Both results are faults, or both are successes with related values and the same bytes left. -/
inductive Alike (R : α → β → Prop) :
    EStateM.Result Fault Cursor α → EStateM.Result Fault Cursor β → Prop
  | error : Alike R (.error e c) (.error e' c')
  | ok (related : R a b) (left : c.FacesOnly rest) (left' : c'.FacesOnly rest) :
    Alike R (.ok a c) (.ok b c')

def Twins (d : Decoder α) (d' : Decoder β) (input input' : List UInt8) (R : α → β → Prop) : Prop :=
  ∀ c c' : Cursor, c.FacesOnly input → c'.FacesOnly input' → Alike R (d c) (d' c')

theorem Alike.mono {R S : α → β → Prop} (hr : Alike R r r') (h : ∀ a b, R a b → S a b) :
    Alike S r r' := by
  cases hr with
  | error => exact .error
  | ok related left left' => exact .ok (h _ _ related) left left'

theorem Twins.mono {d : Decoder α} {d' : Decoder β} {R S : α → β → Prop}
    (hd : Twins d d' input input' R) (h : ∀ a b, R a b → S a b) : Twins d d' input input' S :=
  fun c c' hc hc' => (hd c c' hc hc').mono h

theorem Twins.bind {d : Decoder α} {d' : Decoder β} {f : α → Decoder γ} {f' : β → Decoder δ}
    {R : α → β → Prop} {S : γ → δ → Prop} (hd : Twins d d' input input' R)
    (hf : ∀ a b rest, R a b → Twins (f a) (f' b) rest rest S) :
    Twins (d >>= f) (d' >>= f') input input' S := by
  intro c c' hc hc'
  have hrun := hd c c' hc hc'
  cases h : d c with
  | error e c₁ =>
    rw [h] at hrun
    cases h' : d' c' with
    | error e' c₁' =>
      rw [bind_of_error h, bind_of_error h']
      exact .error
    | ok b c₁' =>
      rw [h'] at hrun
      cases hrun
  | ok a c₁ =>
    rw [h] at hrun
    cases h' : d' c' with
    | error e' c₁' =>
      rw [h'] at hrun
      cases hrun
    | ok b c₁' =>
      rw [h'] at hrun
      rw [bind_of_ok h, bind_of_ok h']
      cases hrun with
      | ok related left left' => exact hf a b _ related _ _ left left'

/-- The bytes settle what the decoder does: it takes them, or it fails whatever follows them. -/
def Settles (d : Decoder α) (bytes : List UInt8) : Prop :=
  (∃ a, Reads d bytes a) ∨ ∀ c : Cursor, c.Faces bytes → ∃ e c', d c = .error e c'

theorem Reads.settles {d : Decoder α} (h : Reads d bytes a) : Settles d bytes := .inl ⟨a, h⟩

theorem Reads.settles_bind {d : Decoder α} {f : α → Decoder β} (hd : Reads d bytes a)
    (hf : Settles (f a) more) : Settles (d >>= f) (bytes ++ more) := by
  rcases hf with ⟨b, hmore⟩ | hfails
  · exact (hd.bind hmore).settles
  · refine .inr fun c hc => ?_
    obtain ⟨hbytes, hrest⟩ := Cursor.faces_append.mp hc
    obtain ⟨e, c', hrun⟩ := hfails _ hrest
    exact ⟨e, c', (bind_of_ok (hd c hbytes)).trans hrun⟩

theorem Settles.bind {d : Decoder α} {f : α → Decoder β} (hd : Settles d bytes)
    (hf : ∀ a, Settles (f a) more) : Settles (d >>= f) (bytes ++ more) := by
  rcases hd with ⟨a, hreads⟩ | hfails
  · exact hreads.settles_bind (hf a)
  · refine .inr fun c hc => ?_
    obtain ⟨e, c', hrun⟩ := hfails c (Cursor.faces_append.mp hc).1
    exact ⟨e, c', bind_of_error hrun⟩

theorem Settles.last {d : Decoder α} {f : α → Decoder β} (hd : Settles d bytes)
    (hf : ∀ a, Settles (f a) []) : Settles (d >>= f) bytes := by
  have h := hd.bind hf
  rwa [List.append_nil] at h

end Decoder

end Callsite
