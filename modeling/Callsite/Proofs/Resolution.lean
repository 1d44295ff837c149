import Callsite.ClassFile.ConstantPool

/-!
# Resolution

A reference is a chain of indices through the pool. The chains are stated here by what the slots hold,
and each look-up succeeds exactly where its chain exists (`references_exact`). Nothing is assumed of
the pool: an index may lead out of it, to itself, or to an entry of another kind.
-/

namespace Callsite

namespace Except

theorem bind_ok {x : Except ε α} {f : α → Except ε β} :
    x >>= f = .ok b ↔ ∃ a, x = .ok a ∧ f a = .ok b := by
  cases x <;> simp [bind, Except.bind]

theorem pure_ok : (pure a : Except ε α) = .ok b ↔ a = b := by
  simp [pure, Except.pure]

theorem throw_ok : (throw e : Except ε α) = .ok a ↔ False :=
  ⟨fun h => (nomatch h), fun h => h.elim⟩

end Except

/-- An entry that names a member: its kind, the index of the class and that of the name and type. -/
inductive Constant.Member : Constant → ConstantKind → Nat → Nat → Prop
  | field : Member (.fieldRef owner member) .fieldRef owner member
  | method : Member (.methodRef owner member) .methodRef owner member
  | interfaceMethod : Member (.interfaceMethodRef owner member) .interfaceMethodRef owner member

namespace ConstantPool

/-- Slots count from 1. -/
def Holds (pool : ConstantPool) (index : Int) (constant : Constant) : Prop :=
  0 < index ∧ pool.slots[index.toNat]? = some (some constant)

def NamesClass (pool : ConstantPool) (index : Int) (owner : Text) : Prop :=
  ∃ name : Nat, pool.Holds index (.classRef name) ∧ pool.Holds name (.utf8 owner)

def NamesMember (pool : ConstantPool) (index : Int) (name descriptor : Text) : Prop :=
  ∃ n d : Nat, pool.Holds index (.nameAndType n d) ∧ pool.Holds n (.utf8 name) ∧
    pool.Holds d (.utf8 descriptor)

def RefersTo (pool : ConstantPool) (index : Int) (kinds : List ConstantKind) (r : MemberReference) :
    Prop :=
  ∃ entry kind, ∃ owner member : Nat, pool.Holds index entry ∧ entry.Member kind owner member ∧
    kind ∈ kinds ∧ pool.NamesClass owner r.owner ∧ pool.NamesMember member r.name r.descriptor ∧
    r.owner ≠ [] ∧ r.name ≠ [] ∧ r.descriptor ≠ []

def CallsDynamically (pool : ConstantPool) (index : Int) (site : Nat × Text × Text) : Prop :=
  ∃ member : Nat, pool.Holds index (.invokeDynamic site.1 member) ∧
    pool.NamesMember member site.2.1 site.2.2

/-- A look-up that fails, and whose failure is the pool's fault. -/
def Refused (result : Except PoolFault α) : Prop :=
  ∃ cause, result = .error cause ∧ (Fault.pool cause).kind = .malformedConstantPool

theorem refused_iff {result : Except PoolFault α} : Refused result ↔ ∀ a, result ≠ .ok a := by
  constructor
  · rintro ⟨cause, rfl, -⟩ a h
    cases h
  · intro h
    cases result with
    | ok a => exact absurd rfl (h a)
    | error cause => exact ⟨cause, rfl, rfl⟩

/-- A look-up gives what it should and nothing else, and is refused where there is nothing to give. -/
structure Answers (result : Except PoolFault α) (Right : α → Prop) : Prop where
  gives : ∀ a, result = .ok a ↔ Right a
  refuses : (∀ a, ¬Right a) → Refused result

theorem answers_of_ok {result : Except PoolFault α} (h : ∀ a, result = .ok a ↔ Right a) :
    Answers result Right :=
  ⟨h, fun hnone => refused_iff.mpr fun a ha => hnone a ((h a).mp ha)⟩

-- ---------------------------------------------------------------------------
-- One slot
-- ---------------------------------------------------------------------------

variable {pool : ConstantPool} {index : Int}

theorem get_ok : pool.get index = .ok constant ↔ pool.Holds index constant := by
  unfold get Holds
  constructor
  · intro h
    split at h
    · rename_i hrange
      split at h
      · rename_i found hslot
        cases h
        exact ⟨hrange.1, hslot⟩
      · cases h
    · cases h
  · rintro ⟨hpos, hslot⟩
    obtain ⟨hlt, -⟩ := Array.getElem?_eq_some_iff.mp hslot
    have hrange : 0 < index ∧ index < pool.count := ⟨hpos, by rw [count]; omega⟩
    simp [hrange, hslot]

theorem getKind_ok : pool.getKind index kinds = .ok constant ↔
    pool.Holds index constant ∧ constant.kind ∈ kinds := by
  simp only [getKind, Except.bind_ok, get_ok]
  constructor
  · rintro ⟨found, hholds, h⟩
    split at h
    · rename_i hkind
      obtain rfl := Except.pure_ok.mp h
      exact ⟨hholds, by simpa using hkind⟩
    · exact (Except.throw_ok.mp h).elim
  · rintro ⟨hholds, hkind⟩
    exact ⟨constant, hholds, by simp [hkind, Except.pure_ok]⟩

theorem utf8_ok : pool.utf8 index = .ok text ↔ pool.Holds index (.utf8 text) := by
  simp only [utf8, Except.bind_ok, getKind_ok]
  constructor
  · rintro ⟨constant, ⟨hholds, hkind⟩, h⟩
    cases constant with
    | utf8 value =>
      obtain rfl := Except.pure_ok.mp h
      exact hholds
    | _ => simp [Constant.kind] at hkind
  · intro hholds
    exact ⟨_, ⟨hholds, by simp [Constant.kind]⟩, rfl⟩

-- ---------------------------------------------------------------------------
-- Chains
-- ---------------------------------------------------------------------------

theorem className_ok : pool.className index = .ok owner ↔ pool.NamesClass index owner := by
  simp only [className, Except.bind_ok, getKind_ok]
  constructor
  · rintro ⟨constant, ⟨hholds, hkind⟩, h⟩
    cases constant with
    | classRef name => exact ⟨name, hholds, utf8_ok.mp h⟩
    | _ => simp [Constant.kind] at hkind
  · rintro ⟨name, hholds, hname⟩
    exact ⟨_, ⟨hholds, by simp [Constant.kind]⟩, utf8_ok.mpr hname⟩

theorem nameAndType_ok : pool.nameAndType index = .ok (name, descriptor) ↔
    pool.NamesMember index name descriptor := by
  simp only [nameAndType, Except.bind_ok, getKind_ok]
  constructor
  · rintro ⟨constant, ⟨hholds, hkind⟩, h⟩
    cases constant with
    | nameAndType n d =>
      simp only [Except.bind_ok, utf8_ok, Except.pure_ok, Prod.mk.injEq] at h
      obtain ⟨_, hname, _, hdescriptor, rfl, rfl⟩ := h
      exact ⟨n, d, hholds, hname, hdescriptor⟩
    | _ => simp [Constant.kind] at hkind
  · rintro ⟨n, d, hholds, hname, hdescriptor⟩
    refine ⟨_, ⟨hholds, by simp [Constant.kind]⟩, ?_⟩
    simp only [Except.bind_ok, utf8_ok, Except.pure_ok]
    exact ⟨name, hname, descriptor, hdescriptor, rfl⟩

/-- What is left to do once the entry of a member is found. -/
def resolveMember (pool : ConstantPool) (index : Int) (owner member : Nat) :
    Except PoolFault MemberReference := do
  let owner ← pool.className owner
  let (name, descriptor) ← pool.nameAndType member
  if owner.isEmpty || name.isEmpty || descriptor.isEmpty then throw (.emptyComponent index)
  else return { owner, name, descriptor }

theorem resolveMember_ok : pool.resolveMember index owner member = .ok r ↔
    pool.NamesClass owner r.owner ∧ pool.NamesMember member r.name r.descriptor ∧
      r.owner ≠ [] ∧ r.name ≠ [] ∧ r.descriptor ≠ [] := by
  simp only [resolveMember, Except.bind_ok, className_ok]
  constructor
  · rintro ⟨ownerName, hclass, ⟨name, descriptor⟩, hmember, h⟩
    split at h
    · exact (Except.throw_ok.mp h).elim
    · rename_i hempty
      obtain rfl := Except.pure_ok.mp h
      exact ⟨hclass, nameAndType_ok.mp hmember, by simpa [and_assoc] using hempty⟩
  · rintro ⟨hclass, hmember, howner, hname, hdescriptor⟩
    refine ⟨r.owner, hclass, (r.name, r.descriptor), nameAndType_ok.mpr hmember, ?_⟩
    simp [howner, hname, hdescriptor, Except.pure_ok]

theorem memberReference_ok :
    pool.memberReference index kinds = .ok r ↔ pool.RefersTo index kinds r := by
  -- the three kinds of members differ in their entry only
  simp only [memberReference, Except.bind_ok, getKind_ok]
  constructor
  · rintro ⟨entry, ⟨hholds, hkind⟩, h⟩
    cases entry with
    | fieldRef owner member =>
      exact ⟨_, _, owner, member, hholds, .field, hkind, resolveMember_ok.mp h⟩
    | methodRef owner member =>
      exact ⟨_, _, owner, member, hholds, .method, hkind, resolveMember_ok.mp h⟩
    | interfaceMethodRef owner member =>
      exact ⟨_, _, owner, member, hholds, .interfaceMethod, hkind, resolveMember_ok.mp h⟩
    | _ => exact (Except.throw_ok.mp h).elim
  · rintro ⟨entry, kind, owner, member, hholds, hmember, hkind, h⟩
    cases hmember with
    | field | method | interfaceMethod => exact ⟨_, ⟨hholds, hkind⟩, resolveMember_ok.mpr h⟩

theorem invokeDynamic_ok :
    pool.invokeDynamic index = .ok site ↔ pool.CallsDynamically index site := by
  simp only [invokeDynamic, Except.bind_ok, getKind_ok]
  constructor
  · rintro ⟨constant, ⟨hholds, hkind⟩, h⟩
    cases constant with
    | invokeDynamic bootstrap member =>
      obtain ⟨⟨name, descriptor⟩, hmember, h⟩ := Except.bind_ok.mp h
      obtain rfl := Except.pure_ok.mp h
      exact ⟨member, hholds, nameAndType_ok.mp hmember⟩
    | _ => simp [Constant.kind] at hkind
  · rintro ⟨member, hholds, hmember⟩
    refine ⟨_, ⟨hholds, by simp [Constant.kind]⟩, ?_⟩
    exact Except.bind_ok.mpr ⟨_, nameAndType_ok.mpr hmember, rfl⟩

/-- References resolve exactly along their chains, in every pool and from every index; a chain that is
broken anywhere, or that ends in an empty text, is the pool's fault. -/
theorem references_exact (pool : ConstantPool) (index : Int) :
    (∀ kinds, Answers (pool.memberReference index kinds) (pool.RefersTo index kinds)) ∧
    Answers (pool.invokeDynamic index) (pool.CallsDynamically index) :=
  ⟨fun _ => answers_of_ok fun _ => memberReference_ok, answers_of_ok fun _ => invokeDynamic_ok⟩

/-- A class entry that names itself names no class. -/
example : memberReference ⟨#[none, some (.classRef 1), some (.methodRef 1 1)]⟩ 2 =
    .error (.wrongKind 1 .classRef [.utf8]) := by
  rfl

end ConstantPool

end Callsite
