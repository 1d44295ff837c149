import Callsite.Proofs.CodeArray
import Callsite.Proofs.Locality
import Callsite.Proofs.Resolution

/-!
# Where texts come from

Every name and descriptor of a decoded class stands in its constant pool: those of the class and its
methods, and those of the members that the instructions refer to. Only the owner of a dynamic call does
not, which is the same for all of them.
-/

namespace Callsite

-- ---------------------------------------------------------------------------
-- References
-- ---------------------------------------------------------------------------

namespace ConstantPool

variable {pool : ConstantPool}

/-- The texts that are constants of the pool. -/
def texts (pool : ConstantPool) : List Text :=
  pool.slots.toList.filterMap fun
    | some (.utf8 t) => some t
    | _ => none

/-- The parts of a reference are texts of the pool, but for the owner of a dynamic call. -/
structure HasMember (pool : ConstantPool) (r : MemberReference) : Prop where
  owner : r.owner ∈ pool.texts ∨ r.owner = dynamicOwner
  name : r.name ∈ pool.texts
  descriptor : r.descriptor ∈ pool.texts

theorem Holds.mem_texts (h : pool.Holds index (.utf8 t)) : t ∈ pool.texts :=
  List.mem_filterMap.mpr ⟨_, (Array.mem_of_getElem? h.2).val, rfl⟩

theorem NamesClass.mem_texts (h : pool.NamesClass index owner) : owner ∈ pool.texts := by
  obtain ⟨name, -, hname⟩ := h
  exact hname.mem_texts

theorem hasMember_of_memberReference (h : pool.memberReference index kinds = .ok r) :
    pool.HasMember r := by
  obtain ⟨_, _, owner, member, -, -, -, hclass, ⟨n, d, -, hname, hdescriptor⟩, -⟩ :=
    memberReference_ok.mp h
  exact ⟨.inl hclass.mem_texts, hname.mem_texts, hdescriptor.mem_texts⟩

theorem hasMember_of_invokeDynamic
    (h : pool.invokeDynamic index = .ok (bootstrap, name, descriptor)) :
    pool.HasMember { owner := dynamicOwner, name, descriptor } := by
  obtain ⟨_, -, n, d, -, hname, hdescriptor⟩ := invokeDynamic_ok.mp h
  exact ⟨.inr rfl, hname.mem_texts, hdescriptor.mem_texts⟩

end ConstantPool

namespace Line

variable {pool : ConstantPool}

theorem hasMember {address : Nat} (line : Line pool address) (h : line.operand.reference? = some r) :
    pool.HasMember r := by
  cases line with
  | field _ _ _ _ hr | call _ _ _ _ hr | interfaceCall _ _ _ _ hr =>
    cases h
    exact ConstantPool.hasMember_of_memberReference hr
  | dynamicCall _ _ _ _ hr =>
    cases h
    exact ConstantPool.hasMember_of_invokeDynamic hr
  | plain | tableSwitch | lookupSwitch | wide => cases h

end Line

theorem Program.hasMember {pool : ConstantPool} {address : Nat} {i : Instruction}
    (program : Program pool address) (hi : i ∈ program.instructions)
    (h : i.operand.reference? = some r) : pool.HasMember r := by
  induction program with
  | done => cases hi
  | line first rest ih =>
    rcases List.mem_cons.mp hi with rfl | hi
    · exact first.hasMember h
    · exact ih hi

namespace Method

variable {m : Method} {pool : ConstantPool}

theorem hasMember {instructions : List Instruction} {i : Instruction}
    (h : m.instructions pool = .ok instructions) (hi : i ∈ instructions)
    (hr : i.operand.reference? = some r) : pool.HasMember r := by
  rw [Method.instructions] at h
  split at h
  next =>
    cases h
    cases hi
  next code hcode =>
    cases code with
    | broken defect => cases h
    | intact maxStack maxLocals bytes handlers =>
      obtain ⟨program, -, rfl⟩ := decodeCode_eq_ok.mp h
      exact program.hasMember hi hr

end Method

-- ---------------------------------------------------------------------------
-- Classes and methods
-- ---------------------------------------------------------------------------

namespace Decoder

theorem ofPool_ok {r : Except PoolFault α} : ofPool r c = .ok a c' ↔ r = .ok a ∧ c = c' := by
  cases r with
  | ok b => simp [ofPool, pure_ok]
  | error e => exact iff_of_false nofun nofun

/-- What a decoder gives over and over it gives each time. -/
theorem mem_timesFrom {d : Decoder α} (h : timesFrom d n done c = .ok as c') (ha : a ∈ as) :
    a ∈ done ∨ ∃ c₁ c₂, d c₁ = .ok a c₂ := by
  induction n generalizing done c with
  | zero =>
    obtain ⟨rfl, -⟩ := pure_ok.mp h
    exact .inl (List.mem_reverse.mp ha)
  | succ n ih =>
    obtain ⟨first, c₁, hfirst, hrest⟩ := bind_ok.mp h
    rcases ih hrest with hdone | hlater
    · rcases List.mem_cons.mp hdone with rfl | hdone
      · exact .inr ⟨c, c₁, hfirst⟩
      · exact .inl hdone
    · exact .inr hlater

theorem mem_times {d : Decoder α} (h : times n d c = .ok as c') (ha : a ∈ as) :
    ∃ c₁ c₂, d c₁ = .ok a c₂ := (mem_timesFrom h ha).resolve_left List.not_mem_nil

end Decoder

open Decoder ConstantPool

namespace ClassFile

variable {pool : ConstantPool}

theorem decodeClassName_mem_texts (h : decodeClassName pool c = .ok owner c') :
    owner ∈ pool.texts := by
  obtain ⟨index, c₁, -, hname⟩ := bind_ok.mp h
  exact (className_ok.mp (ofPool_ok.mp hname).1).mem_texts

theorem decodeMethod_mem_texts (h : decodeMethod pool c = .ok m c') :
    m.name ∈ pool.texts ∧ m.descriptor ∈ pool.texts := by
  simp only [decodeMethod, bind_ok, pure_ok, ofPool_ok, utf8_ok] at h
  obtain ⟨_, _, -, n, _, -, name, _, ⟨hname, -⟩, d, _, -, descriptor, _, ⟨hdescriptor, -⟩, _, _, -, _, _,
    -, rfl, -⟩ := h
  exact ⟨hname.mem_texts, hdescriptor.mem_texts⟩

/-- The name of a class and the names and descriptors of its methods are texts of its pool. -/
theorem decode_mem_texts (h : decode data = .ok file) :
    file.name ∈ file.pool.texts ∧
      ∀ m ∈ file.methods, m.name ∈ file.pool.texts ∧ m.descriptor ∈ file.pool.texts := by
  obtain ⟨body, tail, rfl, hreads⟩ := decode_eq_ok.mp h
  have hbody := hreads (Cursor.ofBytes body) (Cursor.faces_ofBytes.mpr (List.prefix_refl _))
  rw [decodeBody] at hbody
  obtain ⟨minor, _, -, hbody⟩ := bind_ok.mp hbody
  obtain ⟨major, _, -, hbody⟩ := bind_ok.mp hbody
  split at hbody
  next => cases hbody
  next =>
    simp only [bind_ok, pure_ok] at hbody
    obtain ⟨_, _, -, pool, _, -, _, _, -, name, _, hname, _, _, -, _, _, -, _, _, -, _, _, -, _, _, -,
      _, _, -, methods, _, hmethods, _, _, -, rfl, -⟩ := hbody
    refine ⟨decodeClassName_mem_texts hname, fun m hm => ?_⟩
    obtain ⟨c₁, c₂, hm⟩ := mem_times hmethods hm
    exact decodeMethod_mem_texts hm

end ClassFile

end Callsite
