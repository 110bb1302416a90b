import LettuceKernel.CapabilityHistory
import LettuceKernel.SharedBuffer
/-!
# Mediated access to shared buffers

An access succeeds exactly when two independent histories agree. The last create in the slot
of the handle returned that handle and named the presented capability, and the capability was
granted to the caller, for the owner and resource of the buffer, and not taken back. Either
table may have been revoked, reused or re-initialised any number of times in between.

Both tables are described by the history alone: the buffers by `BuffersExact`, the capabilities
by `CapabilitiesExact` on the part of the history that the kernel sees.
-/

namespace Lettuce

open Runs

/-- The capability a create names for this kind of access. -/
def CreateArgs.capability (a : CreateArgs) (write : Bool) : CapabilityHandle :=
  if write then a.writeCapability else a.readCapability

/-- The arguments a buffer was created with. -/
def SharedBuffer.args (buffer : SharedBuffer) : CreateArgs :=
  ⟨buffer.owner, buffer.resource, buffer.size, buffer.readCapability, buffer.writeCapability, true⟩

section
variable {P : Type}

/-- `lettuce_shared_buffer_create` with the arguments `a` returned `x`, and the owner was the
current service. -/
def CreatesWith (x : SharedBufferHandle) (a : CreateArgs) (s : BufferState P) (e : BufferEvent) : Prop :=
  e = .create a ∧ s.currentServiceId = a.owner ∧ Creates s x e

/-- The kernel operations of a run. -/
def kernelHistory : BufferHistory P → GateHistory P
  | [] => []
  | (s, .kernel e) :: h => (s.toGateState, e) :: kernelHistory h
  | _ :: h => kernelHistory h

/-- The service `c` may use the capability on the buffer of `x`, which lies in slot `i` and was
created with `a`. -/
structure Mediated (h : BufferHistory P) (c : ServiceId) (x : SharedBufferHandle) (capability : CapabilityHandle)
    (write : Bool) (i : Nat) (a : CreateArgs) : Prop where
  slot : handleSlot x = some i
  created : Since (CreatesWith x a) (EndsSlot i) h
  named : capability = a.capability write
  granted : ∃ permissions, permissions &&& sharedPermission write = sharedPermission write ∧
    Since (Grants capability c a.owner (sharedOperation write) permissions a.resource) (Withdraws capability)
      (kernelHistory h)

variable {π : Protection P} {h : BufferHistory P} {s : BufferState P} {e : BufferEvent}

/-! ## The life of a slot -/

theorem createdSlot_of_creates {x : SharedBufferHandle} (hx : Creates s x e) : createdSlot s e = handleSlot x := by
  cases e with
  | create a =>
    unfold Creates at hx
    simp only [createdSlot, hx]
  | _ => exact hx.elim

/-- The buffer in slot `i` is active, answers to `x` and was created with `a`. -/
def Holds (s : BufferState P) (i : Nat) (x : SharedBufferHandle) (a : CreateArgs) : Prop :=
  bufferSlot s.buffers x = .ok i ∧ (s.buffers i).args = a

theorem holds_iff {i : Nat} {x : SharedBufferHandle} {a : CreateArgs} (hi : i < sharedBufferCount) :
    Holds s i x a ↔ (s.buffers i).active = true ∧ x = SlotHandle.make i (s.buffers i).generation ∧
      (s.buffers i).args = a := by
  rw [Holds, bufferSlot_eq_ok]
  exact ⟨fun ⟨⟨_, hact, hx⟩, ha⟩ => ⟨hact, hx, ha⟩, fun ⟨hact, hx, ha⟩ => ⟨⟨hi, hact, hx⟩, ha⟩⟩

/-- The slots hold exactly the buffers that were created and not ended. -/
def BuffersExact (h : BufferHistory P) (s : BufferState P) : Prop :=
  ∀ i x a, handleSlot x = some i → (Holds s i x a ↔ Since (CreatesWith x a) (EndsSlot i) h)

/-- Whoever creates with `x` ends what was in its slot. -/
theorem CreatesWith.endsSlot {x : SharedBufferHandle} {a : CreateArgs} {i : Nat} (hx : handleSlot x = some i)
    (hc : CreatesWith x a s e) : createdSlot s e = some i :=
  (createdSlot_of_creates hc.2.2).trans hx

theorem createdArgs {a : CreateArgs} (hc : Creatable s.currentServiceId a) (g : BitVec 16) : (a.buffer g).args = a := by
  obtain ⟨owner, resource, size, readCapability, writeCapability, hasHandle⟩ := a
  obtain ⟨-, -, -, -, hhandle, -⟩ := hc
  cases hhandle
  rfl

theorem createsWith_iff {x : SharedBufferHandle} {a b : CreateArgs} {i : Nat} (hc : Creatable s.currentServiceId a)
    (hfree : firstInactive s.buffers = some i) :
    CreatesWith x b s (.create a) ↔
      x = SlotHandle.make i (SlotHandle.issuedGeneration (s.buffers i).generation) ∧ a = b := by
  simp only [CreatesWith, Creates, sharedBufferCreate_accepts hc hfree, BufferEvent.create.injEq, Except.ok.injEq]
  constructor
  · rintro ⟨rfl, -, rfl⟩
    exact ⟨rfl, rfl⟩
  · rintro ⟨rfl, rfl⟩
    exact ⟨rfl, hc.2.2.2.2.2, rfl⟩

theorem BuffersExact.step (hb : BuffersExact h s) (e : BufferEvent) :
    BuffersExact ((s, e) :: h) (bufferStep π s e) := by
  intro i x a hx
  have hi := (handleSlot_eq_some.1 hx).1
  rw [holds_iff hi]
  rcases bufferStep_slot π s e i with ⟨hlasts, heq⟩ | ⟨rfl, heq⟩ | ⟨b, rfl, hc, hfree, heq⟩ | ⟨y, rfl, hy, hcur, heq⟩
  · -- the buffer lasts, and no other is created
    have hno : ¬ CreatesWith x a s e := fun hcreate => hlasts hi (Or.inr (Or.inl (hcreate.endsSlot hx)))
    have hsame := hb i x a hx
    rw [holds_iff hi] at hsame
    rw [heq]
    simp only [Since, hno, hlasts hi, false_or, not_false_eq_true, true_and]
    exact hsame
  · have hends : EndsSlot i s .init := Or.inl rfl
    simp only [heq, SharedBuffer.cleared, Since, CreatesWith, hends, Bool.false_eq_true, reduceCtorEq, false_and,
      not_true_eq_false, or_self]
  · -- created: the older history of the slot does not count
    have hends : EndsSlot i s (.create b) := Or.inr (Or.inl (createdSlot_create.2 ⟨hc, hfree⟩))
    rw [heq, createdArgs hc, Since, createsWith_iff hc hfree]
    simp only [CreateArgs.buffer, true_and, hends, not_true_eq_false, false_and, or_false]
  · have hends : EndsSlot i s (.revoke y) := by
      refine Or.inr (Or.inr ⟨y, ⟨rfl, ?_⟩, ?_⟩)
      · simp only [sharedBufferRevoke, hy, hcur, ne_eq, not_true_eq_false, if_false]
      · obtain ⟨hlt, -, hhandle⟩ := bufferSlot_eq_ok.1 hy
        exact handleSlot_eq_some.2 ⟨hlt, _, hhandle⟩
    simp only [heq, SharedBuffer.revoked, Since, CreatesWith, hends, Bool.false_eq_true, reduceCtorEq, false_and,
      not_true_eq_false, or_self]

/-- The kernel operations of a run are a run of the kernel. -/
theorem kernelHistory_run {p : P} (r : Run anyStep (bufferStep π) (bufferMachineBoot p) h s) :
    Run anyStep (gateStep π) { kernelBoot with protection := p, calls := [] } (kernelHistory h) s.toGateState := by
  induction r with
  | start => exact .start
  | @next h s r e _ ih =>
    cases e with
    | kernel e => exact ih.next e trivial
    | store handle capability offset byte =>
      have hsame : (bufferStep π s (.store handle capability offset byte)).toGateState = s.toGateState := by
        simp only [bufferStep]
        split
        · rfl
        · split <;> rfl
      rw [hsame]
      exact ih
    | _ => exact ih

theorem BuffersExact.run {p : P} (r : Run anyStep (bufferStep π) (bufferMachineBoot p) h s) : BuffersExact h s := by
  refine r.historyInvariant (I := BuffersExact) (fun i x a hx => ?_) fun h s e _ hb => hb.step e
  rw [holds_iff (handleSlot_eq_some.1 hx).1]
  constructor
  · rintro ⟨hact, -⟩
    cases hact
  · exact False.elim

/-! ## The access -/

theorem sharedPermission_ne_zero (write : Bool) : sharedPermission write ≠ 0 := by
  cases write <;> decide

/-- What an access needs of the two tables is what the history says. -/
theorem mediated_iff {p : P} (r : Run anyStep (bufferStep π) (bufferMachineBoot p) h s) {x : SharedBufferHandle}
    {capability : CapabilityHandle} {write : Bool} {i : Nat} {a : CreateArgs} :
    Mediated h s.currentServiceId x capability write i a ↔
      Holds s i x a ∧ capability = a.capability write ∧
        s.capabilityCheck capability a.owner (sharedOperation write) (sharedPermission write) a.resource = true := by
  have hcheck : s.capabilityCheck capability a.owner (sharedOperation write) (sharedPermission write) a.resource = true ↔
      _ := (CapabilitiesExact.run (kernelHistory_run r)).check (sharedPermission_ne_zero write)
  constructor
  · rintro ⟨hslot, hcreated, hnamed, hgranted⟩
    exact ⟨(BuffersExact.run r i x a hslot).2 hcreated, hnamed, hcheck.2 hgranted⟩
  · rintro ⟨hholds, hnamed, hchecked⟩
    obtain ⟨hlt, -, hhandle⟩ := bufferSlot_eq_ok.1 hholds.1
    have hslot : handleSlot x = some i := handleSlot_eq_some.2 ⟨hlt, _, hhandle⟩
    exact ⟨hslot, (BuffersExact.run r i x a hslot).1 hholds, hnamed, hcheck.1 hchecked⟩

theorem CreatesWith.creatable {x : SharedBufferHandle} {a : CreateArgs} (hc : CreatesWith x a s e) :
    Creatable s.currentServiceId a := by
  obtain ⟨rfl, -, hx⟩ := hc
  obtain ⟨i, hargs, -⟩ := sharedBufferCreate_ok hx
  exact hargs

end

/-- **Access to shared buffers is mediated end to end**: after every run from power-on an access
with non-null out pointers returns OK exactly if the last create in the slot of the handle
returned it, nothing ended that buffer since, it names the capability for this kind of access,
and the capability was granted to the current service for the buffer's owner, operation and
resource and not taken back. On OK it reports the payload and the size of that create,
otherwise it writes nothing. -/
theorem shared_buffer_access_mediated {P : Type} {π : Protection P} {p : P} {h : BufferHistory P} {s : BufferState P}
    (r : Run anyStep (bufferStep π) (bufferMachineBoot p) h s) (x : SharedBufferHandle) (capability : CapabilityHandle)
    (write : Bool) (out : AccessOut) :
    ((sharedBufferAccess s.toKernel s.buffers x capability write true out).1 = .ok ↔
      ∃ i a, Mediated h s.currentServiceId x capability write i a) ∧
    (∀ i a, Mediated h s.currentServiceId x capability write i a →
      sharedBufferAccess s.toKernel s.buffers x capability write true out = (.ok, { data := some i, size := a.size }) ∧
        1 ≤ a.size.toNat ∧ a.size.toNat ≤ sharedBufferSize) ∧
    ((sharedBufferAccess s.toKernel s.buffers x capability write true out).1 ≠ .ok →
      (sharedBufferAccess s.toKernel s.buffers x capability write true out).2 = out) ∧
    bufferStep π s (.access x capability write true) = s := by
  have hiff : (sharedBufferAccess s.toKernel s.buffers x capability write true out).1 = .ok ↔
      ∃ i a, Mediated h s.currentServiceId x capability write i a := by
    rw [sharedBufferAccess_ok]
    constructor
    · rintro ⟨i, hi, hcap, hcheck⟩
      exact ⟨i, (s.buffers i).args, (mediated_iff r).2 ⟨⟨hi, rfl⟩, hcap, hcheck⟩⟩
    · rintro ⟨i, a, hm⟩
      obtain ⟨⟨hi, rfl⟩, hcap, hcheck⟩ := (mediated_iff r).1 hm
      exact ⟨i, hi, hcap, hcheck⟩
  refine ⟨hiff, fun i a hm => ⟨?_, ?_⟩, sharedBufferAccess_out.1, rfl⟩
  · have hok := hiff.2 ⟨i, a, hm⟩
    obtain ⟨⟨hi, rfl⟩, -⟩ := (mediated_iff r).1 hm
    obtain ⟨j, hj, hout⟩ := sharedBufferAccess_out.2 hok
    rw [hi] at hj
    cases hj
    exact Prod.ext hok hout
  · -- the size was checked by the create
    obtain ⟨q, -, hcreate⟩ := hm.created.exists_mem
    obtain ⟨-, -, hsize, hle, -⟩ := hcreate.creatable
    refine ⟨?_, hle⟩
    have hne : a.size.toNat ≠ 0 := fun h0 => hsize (BitVec.eq_of_toNat_eq (by simpa using h0))
    omega

/-- The access of service 20 in memory_unit.c. -/
def unitAccess : List BufferEvent :=
  unitCapabilities ++ [.kernel (.setCurrentServiceId 10), .init, .create unitBuffer, .kernel (.setCurrentServiceId 20)]

theorem shared_buffer_access_mediated_unit :
    ∃ i a, Mediated (traceFrom (bufferStep hostProtection) [] (bufferMachineBoot 0) unitAccess).1 20
      0x00010001 0x00010002 true i a := by
  have r : Run anyStep (bufferStep hostProtection) (bufferMachineBoot 0) _ _ :=
    Run.start.trace (admits_anyStep _ unitAccess)
  exact (shared_buffer_access_mediated r 0x00010001 0x00010002 true ⟨none, 0⟩).1.1 (by rfl)

end Lettuce
