import Callsite.Json.Reader

/-!
# Depth of documents

Whatever the limit on brackets that are open at once, a document is refused as nested too deep only if it
opens more (`openings_of_tooDeep`), and arrays in arrays whenever they do (`tooDeep_replicate_iff`). Every
reader is followed at the depth at which it runs: what it has not read yet opens enough brackets to get
from there past the limit, or it does not find the document too deep.
-/

namespace Callsite.Json

def isOpening (c : CodePoint) : Bool := c = CodePoint.ofChar '[' || c = CodePoint.ofChar '\x7b'

/-- How many brackets and braces a text opens, counting also those that are quoted. -/
def openings (t : Text) : Nat := t.countP isOpening

namespace Reader

-- ---------------------------------------------------------------------------
-- Readers at a depth
-- ---------------------------------------------------------------------------

theorem bind_of_ok {r : Reader α} {f : α → Reader β} (h : r p = .ok a p') : (r >>= f) p = f a p' := by
  show EStateM.bind r f p = _
  rw [EStateM.bind, h]

theorem bind_of_error {r : Reader α} {f : α → Reader β} (h : r p = .error fault p') :
    (r >>= f) p = .error fault p' := by
  show EStateM.bind r f p = _
  rw [EStateM.bind, h]

/-- What a reader that runs at a depth makes of a place. -/
inductive Ends (limit depth : Nat) (p : Place) : EStateM.Result Fault Place α → Prop
  | ok (h : p'.rest <:+ p.rest) : Ends limit depth p (.ok a p')
  | tooDeep (h : limit < depth + openings p.rest) : Ends limit depth p (.error (.tooDeep container) p')
  | fault (h : ∀ container, fault ≠ .tooDeep container) : Ends limit depth p (.error fault p')

def Bounded (limit depth : Nat) (r : Reader α) : Prop := ∀ p, Ends limit depth p (r p)

theorem openings_le {t t' : Text} (h : t' <:+ t) : openings t' ≤ openings t := h.sublist.countP_le

theorem Ends.mono {p p' : Place} {result : EStateM.Result Fault Place α}
    (h : Ends limit depth' p' result) (hsuffix : p'.rest <:+ p.rest)
    (hdepth : depth' + openings p'.rest ≤ depth + openings p.rest) : Ends limit depth p result := by
  cases h with
  | ok hrest => exact .ok (hrest.trans hsuffix)
  | tooDeep hlimit => exact .tooDeep (Nat.lt_of_lt_of_le hlimit hdepth)
  | fault hother => exact .fault hother

theorem Bounded.bind {r : Reader α} {f : α → Reader β} (hr : Bounded limit depth r)
    (hf : ∀ a, Bounded limit depth (f a)) : Bounded limit depth (r >>= f) := by
  intro p
  have hfirst := hr p
  cases hrun : r p with
  | ok a p' =>
    rw [hrun] at hfirst
    rw [bind_of_ok hrun]
    cases hfirst with
    | ok hsuffix =>
      exact (hf a p').mono hsuffix (Nat.add_le_add_left (openings_le hsuffix) depth)
  | error fault p' =>
    rw [hrun] at hfirst
    rw [bind_of_error hrun]
    cases hfirst with
    | tooDeep hlimit => exact .tooDeep hlimit
    | fault hother => exact .fault hother

theorem bounded_pure (a : α) : Bounded limit depth (pure a) := fun p => .ok (List.suffix_refl p.rest)

theorem bounded_get : Bounded limit depth get := fun p => .ok (List.suffix_refl p.rest)

theorem bounded_throw (h : ∀ container, fault ≠ .tooDeep container) :
    Bounded limit depth (throw fault : Reader α) := fun _ => .fault h

theorem bounded_fail (reason : Reason) (position : Nat) :
    Bounded limit depth (fail reason position : Reader α) := bounded_throw nofun

theorem bounded_advance (n : Nat) : Bounded limit depth (advance n) :=
  fun p => .ok (List.drop_suffix n p.rest)

theorem Bounded.map {r : Reader α} (f : α → β) (hr : Bounded limit depth r) :
    Bounded limit depth (f <$> r) :=
  hr.bind fun a => bounded_pure (f a)

theorem Ends.ite {q : Prop} [Decidable q] {p : Place} {r r' : Reader α}
    (h : q → Ends limit depth p (r p)) (h' : ¬q → Ends limit depth p (r' p)) :
    Ends limit depth p ((if q then r else r') p) := by
  split
  next hq => exact h hq
  next hq => exact h' hq

theorem Bounded.ite {q : Prop} [Decidable q] {r r' : Reader α} (hr : Bounded limit depth r)
    (hr' : Bounded limit depth r') : Bounded limit depth (if q then r else r') :=
  fun p => .ite (fun _ => hr p) fun _ => hr' p

theorem bounded_position : Bounded limit depth position := bounded_get.map _

theorem bounded_failHere (reason : Reason) :
    Bounded limit depth (position >>= fun n => fail reason n : Reader α) :=
  bounded_position.bind fun n => bounded_fail reason n

theorem bounded_peek? : Bounded limit depth peek? := bounded_get.map _

theorem bounded_skipSpace : Bounded limit depth skipSpace :=
  bounded_get.bind fun _ => bounded_advance _

/-- Behind a bracket that opens, a reader may run one level deeper. -/
theorem Bounded.opening {p : Place} {r : Reader α} (hr : Bounded limit (depth + 1) r)
    (hrest : p.rest = c :: rest) (hc : isOpening c = true) :
    Ends limit depth p ((advance 1 >>= fun _ => r) p) := by
  have hopens : openings p.rest = openings rest + 1 := by
    rw [hrest]
    exact List.countP_cons_of_pos hc
  have hafter : p.rest.drop 1 = rest := by
    rw [hrest]
    rfl
  have hinner := hr { rest := p.rest.drop 1, position := p.position + 1 }
  refine hinner.mono (List.drop_suffix 1 p.rest) ?_
  simp only [hafter, hopens]
  omega

-- ---------------------------------------------------------------------------
-- Texts and numbers
-- ---------------------------------------------------------------------------

theorem escape_ne_tooDeep {place : Nat} (h : escape place t = .error fault) (container : Container) :
    fault ≠ .tooDeep container := by
  cases t with
  | nil => cases h
  | cons c rest =>
    rw [escape] at h
    split at h
    next =>
      split at h
      next => cases h
      next =>
        cases h
        nofun
    next =>
      split at h
      next =>
        dsimp only at h
        split at h
        next =>
          split at h
          next =>
            split at h
            next => cases h
            next => cases h
          next =>
            cases h
            nofun
        next => cases h
      next =>
        cases h
        nofun

theorem bounded_textFrom (start fuel : Nat) (done : Text) :
    Bounded limit depth (textFrom start fuel done) := by
  induction fuel generalizing done with
  | zero => exact bounded_fail _ _
  | succ fuel ih =>
    refine bounded_get.bind fun place => ?_
    split
    next => exact bounded_fail _ _
    next c rest _ =>
      refine .ite ((bounded_advance 1).bind fun _ => bounded_pure _) (.ite ?_ (.ite (bounded_fail _ _) ?_))
      · split
        next fault hescape => exact bounded_throw (escape_ne_tooDeep hescape)
        next => exact bounded_fail _ _
        next c length _ => exact (bounded_advance _).bind fun _ => ih _
      · exact (bounded_advance 1).bind fun _ => ih _

theorem bounded_text : Bounded limit depth text :=
  bounded_get.bind fun _ => (bounded_advance 1).bind fun _ => bounded_textFrom _ _ _

theorem bounded_number : Bounded limit depth number := by
  refine bounded_get.bind fun place => ?_
  refine .ite (bounded_fail _ _) ((bounded_advance _).bind fun _ => ?_)
  exact .ite (.ite (bounded_throw nofun) (bounded_pure _)) (bounded_pure _)

-- ---------------------------------------------------------------------------
-- Values
-- ---------------------------------------------------------------------------

/-- A bracket opens a level where there is room for one. -/
theorem Bounded.level {p : Place} {inner : Reader α} (hinner : Bounded limit (depth + 1) inner)
    (hrest : p.rest = c :: rest) (hc : isOpening c = true) (container : Container) (close : CodePoint)
    (empty : α) :
    Ends limit depth p ((if depth ≥ limit then throw (.tooDeep container) else do
      advance 1
      skipSpace
      if (← peek?) = some close then
        advance 1
        return empty
      else inner : Reader α) p) := by
  refine .ite (fun hdepth => .tooDeep ?_) fun _ => ?_
  · have hopens : 0 < openings p.rest := by
      rw [hrest]
      exact List.countP_pos_iff.mpr ⟨c, List.mem_cons_self, hc⟩
    omega
  · refine Bounded.opening ?_ hrest hc
    refine bounded_skipSpace.bind fun _ => bounded_peek?.bind fun next => ?_
    exact .ite ((bounded_advance 1).bind fun _ => bounded_pure empty) hinner

theorem bounded_value (hitems : ∀ depth done, Bounded limit depth (items limit fuel depth done))
    (hmembers : ∀ depth done, Bounded limit depth (members limit fuel depth done)) (depth : Nat) :
    Bounded limit depth (value limit (fuel + 1) depth) := by
  intro p
  have hget : (get : Reader Place) p = .ok p p := rfl
  unfold value
  rw [bind_of_ok hget]
  cases hrest : p.rest with
  | nil => exact bounded_fail _ _ p
  | cons c rest =>
    refine .ite (fun _ => bounded_text.map _ p) fun _ => .ite (fun hc => ?_) fun _ =>
      .ite (fun hc => ?_) fun _ => ?_
    · exact ((hmembers (depth + 1) []).map _).level hrest (by simp [isOpening, hc]) _ _ _
    · exact ((hitems (depth + 1) []).map _).level hrest (by simp [isOpening, hc]) _ _ _
    · cases word? (c :: rest) with
      | none => exact bounded_number p
      | some found => exact ((bounded_advance _).bind fun _ => bounded_pure found.2) p

theorem bounded_items (hvalue : ∀ depth, Bounded limit depth (value limit fuel depth))
    (hitems : ∀ depth done, Bounded limit depth (items limit fuel depth done)) (depth : Nat)
    (done : List Json) : Bounded limit depth (items limit (fuel + 1) depth done) := by
  unfold items
  refine (hvalue depth).bind fun item => bounded_skipSpace.bind fun _ => bounded_peek?.bind fun next => ?_
  cases next with
  | none => exact bounded_failHere _
  | some c =>
    refine .ite ((bounded_advance 1).bind fun _ => bounded_pure _) (.ite ?_ ?_)
    · exact (bounded_advance 1).bind fun _ => bounded_skipSpace.bind fun _ => hitems depth _
    · exact bounded_failHere _

theorem bounded_members (hvalue : ∀ depth, Bounded limit depth (value limit fuel depth))
    (hmembers : ∀ depth done, Bounded limit depth (members limit fuel depth done)) (depth : Nat)
    (done : List (Text × Json)) : Bounded limit depth (members limit (fuel + 1) depth done) := by
  unfold members
  refine bounded_peek?.bind fun next => .ite (bounded_failHere _) ?_
  refine bounded_text.bind fun key => bounded_skipSpace.bind fun _ => bounded_peek?.bind fun next => ?_
  refine .ite (bounded_failHere _) ((bounded_advance 1).bind fun _ => bounded_skipSpace.bind fun _ => ?_)
  refine (hvalue depth).bind fun value => bounded_skipSpace.bind fun _ => bounded_peek?.bind fun next => ?_
  cases next with
  | none => exact bounded_failHere _
  | some c =>
    refine .ite ((bounded_advance 1).bind fun _ => bounded_pure _) (.ite ?_ (bounded_failHere _))
    exact (bounded_advance 1).bind fun _ => bounded_skipSpace.bind fun _ => hmembers depth _

/-- Values, items and members call each other with less fuel. -/
theorem bounded_readers (fuel : Nat) :
    (∀ depth, Bounded limit depth (value limit fuel depth)) ∧
    (∀ depth done, Bounded limit depth (items limit fuel depth done)) ∧
    (∀ depth done, Bounded limit depth (members limit fuel depth done)) := by
  induction fuel with
  | zero =>
    exact ⟨fun _ => bounded_failHere _, fun _ _ => bounded_failHere _, fun _ _ => bounded_failHere _⟩
  | succ fuel ih =>
    obtain ⟨hvalue, hitems, hmembers⟩ := ih
    exact ⟨bounded_value hitems hmembers, bounded_items hvalue hitems, bounded_members hvalue hmembers⟩

theorem bounded_document (limit : Nat) : Bounded limit 0 (document limit) := by
  refine bounded_get.bind fun place => .ite (bounded_fail _ _) (bounded_skipSpace.bind fun _ => ?_)
  refine ((bounded_readers _).1 0).bind fun value => bounded_skipSpace.bind fun _ => ?_
  exact bounded_get.bind fun _ => .ite (bounded_pure value) (bounded_failHere _)

end Reader

theorem openings_of_tooDeep (h : read limit document = .error (.tooDeep container)) :
    limit < openings document := by
  have hends := Reader.bounded_document limit { rest := document, position := 0 }
  unfold read at h
  cases hrun : Reader.document limit { rest := document, position := 0 } with
  | ok value p =>
    rw [hrun] at h
    cases h
  | error fault p =>
    rw [hrun] at h hends
    cases h
    cases hends with
    | tooDeep hlimit => rwa [Nat.zero_add] at hlimit
    | fault hother => exact absurd rfl (hother container)

-- ---------------------------------------------------------------------------
-- Arrays in arrays
-- ---------------------------------------------------------------------------

namespace Reader

theorem value_full (h : limit ≤ depth) (rest : Text) (n : Nat) :
    value limit (fuel + 1) depth { rest := CodePoint.ofChar '[' :: rest, position := n } =
      .error (.tooDeep .array) { rest := CodePoint.ofChar '[' :: rest, position := n } :=
  congrFun (if_pos h : (if depth ≥ limit then throw (.tooDeep .array) else _ : Reader Json) = _) _

/-- An array in an array is read one level deeper. -/
theorem value_array (h : ¬limit ≤ depth) (rest : Text) (n : Nat) :
    value limit (fuel + 1) depth
        { rest := CodePoint.ofChar '[' :: CodePoint.ofChar '[' :: rest, position := n } =
      (array <$> items limit fuel (depth + 1) [])
        { rest := CodePoint.ofChar '[' :: rest, position := n + 1 } :=
  congrFun (if_neg h : (if depth ≥ limit then throw (.tooDeep .array) else _ : Reader Json) = _) _

theorem value_nested (tail : Text) (hdepth : depth ≤ limit) (hlimit : limit < depth + n)
    (hfuel : 2 * n ≤ fuel) (position : Nat) :
    ∃ p, value limit fuel depth { rest := List.replicate n (CodePoint.ofChar '[') ++ tail, position } =
      .error (.tooDeep .array) p := by
  induction n generalizing depth fuel position with
  | zero => omega
  | succ n ih =>
    obtain ⟨fuel, rfl⟩ : ∃ k, fuel = k + 2 := ⟨fuel - 2, by omega⟩
    by_cases hfull : limit ≤ depth
    · exact ⟨_, value_full hfull _ _⟩
    · obtain ⟨n, rfl⟩ : ∃ k, n = k + 1 := ⟨n - 1, by omega⟩
      obtain ⟨p, hinner⟩ := ih (show depth + 1 ≤ limit by omega) (by omega)
        (show 2 * (n + 1) ≤ fuel by omega) (position + 1)
      exact ⟨p, (value_array hfull _ _).trans (bind_of_error (bind_of_error hinner))⟩

theorem document_nested (h : limit < n) (tail : Text) :
    ∃ p, document limit { rest := List.replicate n (CodePoint.ofChar '[') ++ tail, position := 0 } =
      .error (.tooDeep .array) p := by
  obtain ⟨n, rfl⟩ : ∃ k, n = k + 1 := ⟨n - 1, by omega⟩
  obtain ⟨p, hvalue⟩ := value_nested tail (Nat.zero_le limit) (by omega)
    (show 2 * (n + 1) ≤ 2 * (List.replicate (n + 1) (CodePoint.ofChar '[') ++ tail).length + 1 by
      simp only [List.length_append, List.length_replicate]
      omega) 0
  have hmark : ¬(List.replicate (n + 1) (CodePoint.ofChar '[') ++ tail).head? =
      some (CodePoint.ofNat 0xFEFF) :=
    show ¬some (CodePoint.ofChar '[') = some (CodePoint.ofNat 0xFEFF) by decide
  refine ⟨p, (bind_of_ok rfl).trans ((congrFun (if_neg hmark) _).trans ?_)⟩
  exact (bind_of_ok rfl).trans (bind_of_error hvalue)

end Reader

/-- Arrays in arrays are too deep exactly if there are more than may be open at once. -/
theorem tooDeep_replicate_iff (htail : openings tail = 0) :
    (∃ container, read limit (List.replicate n (CodePoint.ofChar '[') ++ tail) =
      .error (.tooDeep container)) ↔ limit < n := by
  constructor
  · rintro ⟨container, h⟩
    have hopenings := openings_of_tooDeep h
    have hall : openings (List.replicate n (CodePoint.ofChar '[') ++ tail) = n + openings tail := by
      rw [openings, List.countP_append, List.countP_replicate]
      rfl
    rwa [hall, htail, Nat.add_zero] at hopenings
  · intro h
    obtain ⟨p, hdocument⟩ := Reader.document_nested h tail
    refine ⟨.array, ?_⟩
    rw [read, hdocument]

end Callsite.Json
