import Callsite.Proofs.Locality

/-!
# Whose fault it is

A fault of a class and a fault of a method are of different kinds, so that each is caught where it
belongs. `Raises` says which kinds a decoder can stop with; it goes through every read, because a read
that does not fit is charged to whatever the cursor carries.
-/

namespace Callsite

namespace Decoder

/-- Where reads are charged to `blame`, the decoder stops only with faults of the given kinds. The
cursor carries the same charge afterwards, whichever way the decoder ends. -/
def Raises (d : Decoder α) (blame : FaultKind) (kinds : List FaultKind) : Prop :=
  ∀ c : Cursor, c.blame = blame →
    match d c with
    | .ok _ c' => c'.blame = blame
    | .error e c' => c'.blame = blame ∧ e.kind ∈ kinds

variable {blame : FaultKind} {kinds : List FaultKind}

theorem Raises.kind {d : Decoder α} (hd : Raises d blame kinds) (hc : c.blame = blame)
    (h : d c = .error e c') : e.kind ∈ kinds := by
  have hd := hd c hc
  rw [h] at hd
  exact hd.2

theorem Raises.mono {d : Decoder α} (hd : Raises d blame kinds) (h : kinds ⊆ more) :
    Raises d blame more := by
  intro c hc
  have hd := hd c hc
  cases hrun : d c with
  | ok a c' =>
    rw [hrun] at hd
    exact hd
  | error e c' =>
    rw [hrun] at hd
    exact ⟨hd.1, h hd.2⟩

theorem bind_error {d : Decoder α} {f : α → Decoder β} : (d >>= f) c = .error e c'' ↔
    d c = .error e c'' ∨ ∃ a c', d c = .ok a c' ∧ f a c' = .error e c'' := by
  show EStateM.bind d f c = _ ↔ _
  unfold EStateM.bind
  cases d c <;> simp

theorem raises_pure (a : α) : Raises (pure a) blame kinds := fun _ hc => hc

theorem raises_get : Raises get blame kinds := fun _ hc => hc

theorem raises_offset : Raises offset blame kinds := fun _ hc => hc

theorem raises_throw (e : Fault) (h : e.kind ∈ kinds) :
    Raises (throw e : Decoder α) blame kinds := fun _ hc => ⟨hc, h⟩

theorem Raises.bind {d : Decoder α} {f : α → Decoder β} (hd : Raises d blame kinds)
    (hf : ∀ a, Raises (f a) blame kinds) : Raises (d >>= f) blame kinds := by
  intro c hc
  have hd := hd c hc
  cases hrun : d c with
  | ok a c' =>
    rw [hrun] at hd
    rw [bind_of_ok hrun]
    exact hf a c' hd
  | error e c' =>
    rw [hrun] at hd
    rw [bind_of_error hrun]
    exact hd

theorem Raises.map {d : Decoder α} (f : α → β) (hd : Raises d blame kinds) :
    Raises (f <$> d) blame kinds := by
  intro c hc
  have hd := hd c hc
  show match EStateM.map f d c with | .ok _ c' => _ | .error e c' => _
  rw [EStateM.map]
  cases hrun : d c with
  | ok a c' =>
    rw [hrun] at hd
    exact hd
  | error e c' =>
    rw [hrun] at hd
    exact hd

theorem Raises.ite {p : Prop} [Decidable p] {d e : Decoder α} (hd : Raises d blame kinds)
    (he : Raises e blame kinds) : Raises (if p then d else e) blame kinds := by
  split
  · exact hd
  · exact he

/-- Whatever was charged before, inside only `kind` is. -/
theorem Raises.charging {kind : FaultKind} {d : Decoder α} (hd : Raises d kind kinds) :
    Raises (charging kind d) blame kinds := by
  intro c hc
  have hd := hd { c with blame := kind } rfl
  rw [Decoder.charging]
  cases hrun : d { c with blame := kind } with
  | ok a c' => exact hc
  | error e c' =>
    rw [hrun] at hd
    exact ⟨hc, hd.2⟩

theorem raises_skip (n : Int) : Raises (skip n) blame (blame :: kinds) := by
  intro c hc
  have hown : c.blame ∈ blame :: kinds := hc ▸ List.mem_cons_self
  rw [skip]
  by_cases hn : n < 0
  · rw [if_pos hn]
    exact ⟨hc, hown⟩
  · rw [if_neg hn]
    by_cases hfits : c.offset + n.toNat ≤ c.data.size
    · rw [if_pos hfits]
      exact hc
    · rw [if_neg hfits]
      exact ⟨hc, hown⟩

theorem raises_take (n : Int) : Raises (take n) blame (blame :: kinds) :=
  raises_get.bind fun _ => (raises_skip n).bind fun _ => raises_pure _

theorem raises_u1 : Raises u1 blame (blame :: kinds) := (raises_take 1).map _
theorem raises_u2 : Raises u2 blame (blame :: kinds) := (raises_take 2).map _
theorem raises_u4 : Raises u4 blame (blame :: kinds) := (raises_take 4).map _
theorem raises_s4 : Raises s4 blame (blame :: kinds) := (raises_take 4).map _

theorem raises_ofPool (r : Except PoolFault α) (h : .malformedConstantPool ∈ kinds) :
    Raises (ofPool r) blame kinds := by
  cases r with
  | ok a => exact raises_pure a
  | error e => exact raises_throw _ h

theorem Raises.times {d : Decoder α} (hd : Raises d blame kinds) (n : Nat) :
    Raises (times n d) blame kinds := by
  have hfrom : ∀ done, Raises (timesFrom d n done) blame kinds := by
    induction n with
    | zero => exact fun done => raises_pure done.reverse
    | succ n ih => exact fun done => hd.bind fun a => ih (a :: done)
  exact hfrom []

end Decoder

open Decoder

-- ---------------------------------------------------------------------------
-- Constant pools
-- ---------------------------------------------------------------------------

namespace ConstantPool

theorem raises_decodeText : Raises decodeText .malformedConstantPool [.malformedConstantPool] := by
  refine raises_u2.bind fun n => (raises_take n).bind fun raw => ?_
  cases ModifiedUtf8.decode? raw with
  | none => exact raises_throw _ (.head _)
  | some text => exact raises_pure _

theorem raises_decodeConstant (index : Nat) :
    Raises (decodeConstant index) .malformedConstantPool [.malformedConstantPool] := by
  refine raises_u1.bind fun tag => raises_decodeText.ite ?_
  cases payload? tag with
  | none => exact raises_throw _ (.head _)
  | some layout => exact (raises_take layout.1).map layout.2

theorem raises_decodeSlots (n : Nat) (slots : Array (Option Constant)) :
    Raises (decodeSlots n slots) .malformedConstantPool [.malformedConstantPool] := by
  induction n using Nat.strongRecOn generalizing slots with
  | ind n ih =>
    cases n with
    | zero => exact raises_pure slots
    | succ n =>
      rw [decodeSlots]
      refine (raises_decodeConstant slots.size).bind fun constant => ?_
      refine Raises.ite ?_ (ih n (by omega) _)
      cases n with
      | zero => exact raises_throw _ (.head _)
      | succ n => exact ih n (by omega) _

theorem raises_decode (count : Int) : Raises (decode count) blame [.malformedConstantPool] := by
  refine (raises_throw _ (.head _)).ite (Raises.charging ?_)
  exact (raises_decodeSlots _ _).bind fun slots => raises_pure _

end ConstantPool

-- ---------------------------------------------------------------------------
-- Instructions
-- ---------------------------------------------------------------------------

namespace Instruction

variable {pool : ConstantPool} (op : Opcode) (address : Nat)

theorem raises_finish (operand : Operand) : Raises (finish op address operand) blame kinds :=
  raises_offset.bind fun _ => raises_pure _

theorem raises_resolving (r : Except PoolFault α) :
    Raises (resolving op address r) blame [.malformedBytecode] := by
  cases r with
  | ok a => exact raises_pure a
  | error e => exact raises_throw _ (.head _)

theorem raises_skipSwitchHead :
    Raises (skipSwitchHead address) .malformedBytecode [.malformedBytecode] :=
  (raises_skip _).bind fun _ => raises_skip 4

theorem raises_skipTableSwitch :
    Raises (skipTableSwitch address) .malformedBytecode [.malformedBytecode] := by
  refine (raises_skipSwitchHead address).bind fun _ => ?_
  refine raises_s4.bind fun low => raises_s4.bind fun high => ?_
  exact (raises_throw _ (.head _)).ite (raises_skip _)

theorem raises_skipLookupSwitch :
    Raises (skipLookupSwitch address) .malformedBytecode [.malformedBytecode] := by
  refine (raises_skipSwitchHead address).bind fun _ => raises_s4.bind fun pairs => ?_
  exact (raises_throw _ (.head _)).ite (raises_skip _)

theorem raises_skipWide :
    Raises (skipWide address) .malformedBytecode [.malformedBytecode] := by
  refine raises_u1.bind fun byte => ?_
  cases Opcode.ofByte? byte with
  | none => exact raises_throw _ (.head _)
  | some inner => exact (raises_skip _).ite (raises_throw _ (.head _))

theorem raises_decodeInterfaceCall :
    Raises (decodeInterfaceCall pool op address) .malformedBytecode [.malformedBytecode] := by
  refine raises_u2.bind fun index => raises_u1.bind fun count => raises_u1.bind fun padding => ?_
  refine (raises_throw _ (.head _)).ite ((raises_throw _ (.head _)).ite ?_)
  exact (raises_resolving op address _).bind fun reference => raises_finish op address _

theorem raises_decodeDynamicCall :
    Raises (decodeDynamicCall pool op address) .malformedBytecode [.malformedBytecode] := by
  refine raises_u2.bind fun index => raises_u2.bind fun padding => (raises_throw _ (.head _)).ite ?_
  exact (raises_resolving op address _).bind fun found => raises_finish op address _

theorem raises_decodeCall :
    Raises (decodeCall pool op address) .malformedBytecode [.malformedBytecode] := by
  refine raises_u2.bind fun index => (raises_resolving op address _).bind fun reference => ?_
  exact raises_finish op address _

theorem raises_decodeField :
    Raises (decodeField pool op address) .malformedBytecode [.malformedBytecode] := by
  refine raises_u2.bind fun index => (raises_resolving op address _).bind fun reference => ?_
  exact raises_finish op address _

theorem raises_decodeOperands :
    Raises (decodeOperands pool op address) .malformedBytecode [.malformedBytecode] := by
  refine (raises_decodeInterfaceCall op address).ite ?_
  refine (raises_decodeDynamicCall op address).ite ?_
  refine (raises_decodeCall op address).ite ?_
  refine (raises_decodeField op address).ite ?_
  refine Raises.ite ?_ (Raises.ite ?_ (Raises.ite ?_ ?_))
  · exact (raises_skipTableSwitch address).bind fun _ => raises_finish op address _
  · exact (raises_skipLookupSwitch address).bind fun _ => raises_finish op address _
  · exact (raises_skipWide address).bind fun _ => raises_finish op address _
  · exact (raises_skip _).bind fun _ => raises_finish op address _

theorem raises_decode (pool : ConstantPool) :
    Raises (decode pool) .malformedBytecode [.malformedBytecode] := by
  refine raises_offset.bind fun address => raises_u1.bind fun byte => ?_
  cases Opcode.ofByte? byte with
  | none => exact raises_throw _ (.head _)
  | some op => exact raises_decodeOperands op address

theorem raises_decodeFrom (pool : ConstantPool) (rounds : Nat) (done : List Instruction) :
    Raises (decodeFrom pool rounds done) .malformedBytecode [.malformedBytecode] := by
  induction rounds generalizing done with
  | zero => exact raises_pure _
  | succ rounds ih =>
    refine raises_get.bind fun c => (raises_pure _).ite ?_
    exact (raises_decode pool).bind fun i => ih (i :: done)

end Instruction

theorem decodeCode_fault (h : decodeCode pool code = .error fault) :
    fault.kind = .malformedBytecode := by
  rw [decodeCode] at h
  split at h
  next => cases h
  next e c hrun =>
    cases h
    exact List.mem_singleton.mp ((Instruction.raises_decodeFrom pool _ _).kind rfl hrun)

/-- Methods are spoilt by nothing but their code. -/
theorem Method.instructions_fault {m : Method} (h : m.instructions pool = .error fault) :
    fault.kind = .malformedBytecode := by
  rw [Method.instructions] at h
  split at h
  next => cases h
  next code _ =>
    cases code with
    | intact maxStack maxLocals bytes handlers => exact decodeCode_fault h
    | broken defect =>
      cases h
      rfl

end Callsite
