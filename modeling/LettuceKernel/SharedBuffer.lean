import LettuceKernel.Gates
import LettuceKernel.Lib.SlotHandle
/-!
# Shared buffers (`memory/shared/buffer.c`)

| here | there |
| --- | --- |
| `SharedBuffer`, `BufferTable` | `SharedBuffer` (buffer.c:42) without padding, `buffers` (:60) |
| `sharedBufferInit`   | `lettuce_shared_buffer_init` (:71) |
| `sharedBufferCreate` | `lettuce_shared_buffer_create` (:81) |
| `bufferSlot`         | decoding, active and generation check of `access` and `revoke` (:132-137, :155-160) |
| `sharedBufferAccess` | `lettuce_shared_buffer_access` (:124); `AccessOut` is what `*data` and `*size` hold |
| `sharedBufferRevoke` | `lettuce_shared_buffer_revoke` (:152) |
| `BufferState`, `bufferStep` | the kernel of `Gates` together with the buffers |

A pointer to a payload is the number of its slot. A `store` event is one byte written through
the pointer that a write access returns in the current state; the pointer reaches the whole
payload of 4096 bytes, whatever size the buffer was created with.
-/

namespace Lettuce

open Runs

abbrev SharedBufferHandle := BitVec 32

/-- `LETTUCE_SHARED_BUFFER_SIZE` (memory.h:36). -/
def sharedBufferSize : Nat := 4096

/-- `LETTUCE_SHARED_BUFFER_COUNT` (memory.h:37). -/
def sharedBufferCount : Nat := 16

/-- `LETTUCE_SHARED_READ_OPERATION` and `LETTUCE_SHARED_WRITE_OPERATION` (memory.h:38-39). -/
def sharedOperation (write : Bool) : OperationId := if write then 0x101 else 0x100

def sharedPermission (write : Bool) : BitVec 32 := if write then capWrite else capRead

structure SharedBuffer where
  size : Reg
  resource : ResourceId
  readCapability : CapabilityHandle
  writeCapability : CapabilityHandle
  owner : ServiceId
  generation : BitVec 16
  active : Bool
  data : Nat → BitVec 8

abbrev BufferTable := Nat → SharedBuffer

/-- `(SharedBuffer){.generation = generation}`. -/
def SharedBuffer.cleared (generation : BitVec 16) : SharedBuffer :=
  { size := 0, resource := 0, readCapability := 0, writeCapability := 0, owner := 0, generation, active := false,
    data := fun _ => 0 }

/-- The static storage at power-on. -/
def bufferBoot : BufferTable := fun _ => .cleared 0

def sharedBufferInit (b : BufferTable) : BufferTable := fun i =>
  if i < sharedBufferCount then .cleared (SlotHandle.issuedGeneration (b i).generation) else b i

/-- The first slot the loop of `create` does not skip. -/
def firstInactive (b : BufferTable) : Option Nat :=
  (List.range sharedBufferCount).find? fun i => !(b i).active

/-- The arguments of `lettuce_shared_buffer_create`; `hasHandle` says that the out pointer is
not NULL. -/
structure CreateArgs where
  owner : ServiceId
  resource : ResourceId
  size : Reg
  readCapability : CapabilityHandle
  writeCapability : CapabilityHandle
  hasHandle : Bool
deriving DecidableEq, Repr

/-- The buffer `create` leaves in a slot of generation `g`. -/
def CreateArgs.buffer (a : CreateArgs) (g : BitVec 16) : SharedBuffer :=
  { size := a.size, resource := a.resource, readCapability := a.readCapability, writeCapability := a.writeCapability,
    owner := a.owner, generation := g, active := true, data := fun _ => 0 }

def sharedBufferCreate (b : BufferTable) (currentServiceId : ServiceId) (a : CreateArgs) :
    BufferTable × Except Status SharedBufferHandle :=
  if a.owner = 0 ∨ a.resource = 0 ∨ a.size = 0 ∨ a.size.toNat > sharedBufferSize ∨ a.hasHandle = false then
    (b, .error .invalidArgument)
  else if currentServiceId ≠ a.owner then (b, .error .denied)
  else match firstInactive b with
    | none => (b, .error .unavailable)
    | some i =>
      let generation := SlotHandle.issuedGeneration (b i).generation
      (Function.update b i (a.buffer generation), .ok (SlotHandle.make i generation))

/-- The active buffer a handle names. -/
def bufferSlot (b : BufferTable) (handle : SharedBufferHandle) : Except Status Nat :=
  match SlotHandle.decode sharedBufferCount handle with
  | none => .error .invalidArgument
  | some (slot, generation) =>
    if !(b slot).active || (b slot).generation != generation then .error .notFound else .ok slot

/-- The capability `access` expects. -/
def SharedBuffer.capability (buffer : SharedBuffer) (write : Bool) : CapabilityHandle :=
  if write then buffer.writeCapability else buffer.readCapability

/-- What the out pointers of `access` point to. -/
structure AccessOut where
  data : Option Nat
  size : Reg
deriving DecidableEq, Repr

/-- `hasOut` says that neither out pointer is NULL. -/
def sharedBufferAccess (k : Kernel) (b : BufferTable) (handle : SharedBufferHandle) (capability : CapabilityHandle)
    (write hasOut : Bool) (out : AccessOut) : Status × AccessOut :=
  if hasOut = false then (.invalidArgument, out)
  else match bufferSlot b handle with
    | .error status => (status, out)
    | .ok slot =>
      if capability ≠ (b slot).capability write ||
          !k.capabilityCheck capability (b slot).owner (sharedOperation write) (sharedPermission write)
            (b slot).resource then (.capabilityDenied, out)
      else (.ok, { data := some slot, size := (b slot).size })

/-- The buffer `revoke` leaves: inactive, one generation on, payload zeroed. -/
def SharedBuffer.revoked (buffer : SharedBuffer) : SharedBuffer :=
  { buffer with active := false, generation := nextGeneration buffer.generation, data := fun _ => 0 }

def sharedBufferRevoke (b : BufferTable) (currentServiceId : ServiceId) (handle : SharedBufferHandle) :
    BufferTable × Status :=
  match bufferSlot b handle with
  | .error status => (b, status)
  | .ok slot =>
    if currentServiceId ≠ (b slot).owner then (b, .denied)
    else (Function.update b slot (b slot).revoked, .ok)

/-- A byte stored at an offset. -/
abbrev PayloadWrite := Nat × BitVec 8

/-- The writes, oldest first, over a payload. -/
def overlay (data : Nat → BitVec 8) (writes : List PayloadWrite) : Nat → BitVec 8 :=
  writes.foldl (fun data w => Function.update data w.1 w.2) data

/-! ## The machine -/

structure BufferState (P : Type) extends GateState P where
  buffers : BufferTable

inductive BufferEvent where
  | kernel (e : KernelEvent)
  | init
  | create (a : CreateArgs)
  | access (handle : SharedBufferHandle) (capability : CapabilityHandle) (write hasOut : Bool)
  | revoke (handle : SharedBufferHandle)
  | store (handle : SharedBufferHandle) (capability : CapabilityHandle) (offset : Nat) (byte : BitVec 8)
deriving DecidableEq, Repr

/-- One byte of a payload. -/
def storeByte (b : BufferTable) (slot offset : Nat) (byte : BitVec 8) : BufferTable :=
  Function.update b slot { b slot with data := Function.update (b slot).data offset byte }

section
variable {P : Type}

/-- The slot whose payload a write access returns in `s`. -/
def BufferState.writable (s : BufferState P) (handle : SharedBufferHandle) (capability : CapabilityHandle) :
    Option Nat :=
  let result := sharedBufferAccess s.toKernel s.buffers handle capability true true { data := none, size := 0 }
  if result.1 = .ok then result.2.data else none

def bufferStep (π : Protection P) (s : BufferState P) : BufferEvent → BufferState P
  | .kernel e => { s with toGateState := gateStep π s.toGateState e }
  | .init => { s with buffers := sharedBufferInit s.buffers }
  | .create a => { s with buffers := (sharedBufferCreate s.buffers s.currentServiceId a).1 }
  | .access .. => s
  | .revoke handle => { s with buffers := (sharedBufferRevoke s.buffers s.currentServiceId handle).1 }
  | .store handle capability offset byte =>
    match s.writable handle capability with
    | none => s
    | some slot =>
      -- bytes beyond the payload are not the buffer's
      if offset < sharedBufferSize then { s with buffers := storeByte s.buffers slot offset byte } else s

end

abbrev BufferHistory (P : Type) := List (BufferState P × BufferEvent)

/-- Power-on: every table zero. -/
def bufferMachineBoot {P : Type} (p : P) : BufferState P :=
  { kernelBoot with protection := p, calls := [], buffers := bufferBoot }

/-! ## One equation per call -/

section
variable {b : BufferTable} {current : ServiceId} {a : CreateArgs} {handle : SharedBufferHandle}

theorem firstInactive_eq_some {i : Nat} (h : firstInactive b = some i) :
    i < sharedBufferCount ∧ (b i).active = false ∧ ∀ j, j < i → (b j).active = true := by
  rw [firstInactive, List.find?_range_eq_some] at h
  obtain ⟨hfree, hmem, hbefore⟩ := h
  exact ⟨List.mem_range.1 hmem, by simpa using hfree, fun j hj => by simpa using hbefore j hj⟩

/-- What `create` demands before it looks for a slot. -/
def Creatable (current : ServiceId) (a : CreateArgs) : Prop :=
  a.owner ≠ 0 ∧ a.resource ≠ 0 ∧ a.size ≠ 0 ∧ a.size.toNat ≤ sharedBufferSize ∧ a.hasHandle = true ∧ current = a.owner

instance (current : ServiceId) (a : CreateArgs) : Decidable (Creatable current a) :=
  inferInstanceAs (Decidable (_ ∧ _))

theorem sharedBufferCreate_accepts {i : Nat} (hc : Creatable current a) (hi : firstInactive b = some i) :
    sharedBufferCreate b current a =
      (Function.update b i (a.buffer (SlotHandle.issuedGeneration (b i).generation)),
        .ok (SlotHandle.make i (SlotHandle.issuedGeneration (b i).generation))) := by
  obtain ⟨h1, h2, h3, h4, h5, h6⟩ := hc
  have hargs : ¬ (a.owner = 0 ∨ a.resource = 0 ∨ a.size = 0 ∨ a.size.toNat > sharedBufferSize ∨
      a.hasHandle = false) := by
    simp only [not_or, Nat.not_lt, Bool.not_eq_false]
    exact ⟨h1, h2, h3, h4, h5⟩
  rw [sharedBufferCreate, if_neg hargs, if_neg (not_not.2 h6), hi]

theorem sharedBufferCreate_ok (h : (sharedBufferCreate b current a).2 = .ok handle) :
    ∃ i, Creatable current a ∧ firstInactive b = some i ∧
      handle = SlotHandle.make i (SlotHandle.issuedGeneration (b i).generation) := by
  unfold sharedBufferCreate at h
  split at h
  · cases h
  · rename_i hargs
    simp only [not_or, Nat.not_lt, Bool.not_eq_false] at hargs
    split at h
    · cases h
    · rename_i hcur
      split at h
      · cases h
      · rename_i i hi
        cases h
        exact ⟨i, ⟨hargs.1, hargs.2.1, hargs.2.2.1, hargs.2.2.2.1, hargs.2.2.2.2, not_not.1 hcur⟩, hi, rfl⟩

theorem sharedBufferCreate_error {status : Status} (h : (sharedBufferCreate b current a).2 = .error status) :
    (sharedBufferCreate b current a).1 = b := by
  unfold sharedBufferCreate at h ⊢
  split at h
  · rename_i hargs
    rw [if_pos hargs]
  · rename_i hargs
    rw [if_neg hargs]
    split at h
    · rename_i hcur
      rw [if_pos hcur]
    · rename_i hcur
      rw [if_neg hcur]
      split at h
      · rfl
      · cases h

theorem bufferSlot_eq_ok {i : Nat} :
    bufferSlot b handle = .ok i ↔
      i < sharedBufferCount ∧ (b i).active = true ∧ handle = SlotHandle.make i (b i).generation := by
  unfold bufferSlot
  constructor
  · intro h
    split at h
    · cases h
    · rename_i slot generation hdecode
      obtain ⟨hslot, rfl⟩ := (SlotHandle.decode_eq_some (by decide)).1 hdecode
      split at h
      · cases h
      · rename_i hlive
        simp only [Bool.not_eq_true, Bool.or_eq_false_iff, Bool.not_eq_false', bne_eq_false_iff_eq] at hlive
        cases h
        exact ⟨hslot, hlive.1, by rw [hlive.2]⟩
  · rintro ⟨hi, hact, rfl⟩
    rw [(SlotHandle.decode_eq_some (by decide)).2 ⟨hi, rfl⟩]
    simp [hact]

theorem bufferSlot_ne_error_ok : bufferSlot b handle ≠ .error .ok := by
  intro h
  unfold bufferSlot at h
  repeat' split at h
  all_goals cases h

/-- A revoke ends an active buffer of the current service, or changes nothing. -/
theorem sharedBufferRevoke_cases (b : BufferTable) (current : ServiceId) (handle : SharedBufferHandle) :
    ((sharedBufferRevoke b current handle).2 ≠ .ok ∧ (sharedBufferRevoke b current handle).1 = b) ∨
      ∃ i, bufferSlot b handle = .ok i ∧ current = (b i).owner ∧
        sharedBufferRevoke b current handle = (Function.update b i (b i).revoked, .ok) := by
  cases hs : bufferSlot b handle with
  | error status =>
    left
    simp only [sharedBufferRevoke, hs]
    exact ⟨fun he => bufferSlot_ne_error_ok (hs.trans (by rw [he])), trivial⟩
  | ok i =>
    simp only [sharedBufferRevoke, hs]
    split
    · exact Or.inl ⟨by simp, rfl⟩
    · rename_i hcur
      exact Or.inr ⟨i, rfl, not_not.1 hcur, rfl⟩

/-- Access is granted for an active buffer, its own capability and a check that passes. -/
theorem sharedBufferAccess_ok {k : Kernel} {capability : CapabilityHandle} {write : Bool} {out : AccessOut} :
    (sharedBufferAccess k b handle capability write true out).1 = .ok ↔
      ∃ i, bufferSlot b handle = .ok i ∧ capability = (b i).capability write ∧
        k.capabilityCheck capability (b i).owner (sharedOperation write) (sharedPermission write)
          (b i).resource = true := by
  unfold sharedBufferAccess
  simp only [Bool.true_eq_false, ↓reduceIte]
  cases hs : bufferSlot b handle with
  | error status =>
    constructor
    · intro h
      exact absurd (hs.trans (by rw [show status = .ok from h])) bufferSlot_ne_error_ok
    · rintro ⟨i, hi, -⟩
      cases hi
  | ok i =>
    dsimp only
    split
    · rename_i hdenied
      constructor
      · intro h
        cases h
      · rintro ⟨j, hj, hcap, hcheck⟩
        cases hj
        rw [Bool.or_eq_true, decide_eq_true_eq, Bool.not_eq_true'] at hdenied
        rcases hdenied with hne | hfalse
        · exact absurd hcap hne
        · rw [hcheck] at hfalse
          cases hfalse
    · rename_i hallowed
      simp only [Bool.or_eq_true, decide_eq_true_eq, Bool.not_eq_true', not_or, not_not, Bool.not_eq_false] at hallowed
      exact iff_of_true rfl ⟨i, rfl, hallowed.1, hallowed.2⟩

/-- On OK the out pointers get the payload and size of the buffer, otherwise nothing. -/
theorem sharedBufferAccess_out {k : Kernel} {capability : CapabilityHandle} {write hasOut : Bool} {out : AccessOut} :
    ((sharedBufferAccess k b handle capability write hasOut out).1 ≠ .ok →
      (sharedBufferAccess k b handle capability write hasOut out).2 = out) ∧
    ((sharedBufferAccess k b handle capability write hasOut out).1 = .ok →
      ∃ i, bufferSlot b handle = .ok i ∧
        (sharedBufferAccess k b handle capability write hasOut out).2 = { data := some i, size := (b i).size }) := by
  unfold sharedBufferAccess
  split
  · exact ⟨fun _ => rfl, fun h => by cases h⟩
  · cases hs : bufferSlot b handle with
    | error status =>
      refine ⟨fun _ => rfl, fun h => ?_⟩
      exact absurd (hs.trans (by rw [show status = .ok from h])) bufferSlot_ne_error_ok
    | ok i =>
      dsimp only
      split
      · exact ⟨fun _ => rfl, fun h => by cases h⟩
      · exact ⟨fun h => absurd rfl h, fun _ => ⟨i, rfl, rfl⟩⟩

end

section
variable {P : Type} {s : BufferState P}

theorem writable_eq_some {handle : SharedBufferHandle} {capability : CapabilityHandle} {i : Nat} :
    s.writable handle capability = some i ↔ bufferSlot s.buffers handle = .ok i ∧
      (sharedBufferAccess s.toKernel s.buffers handle capability true true { data := none, size := 0 }).1 = .ok := by
  unfold BufferState.writable
  dsimp only
  split
  · rename_i hok
    obtain ⟨j, hj, hout⟩ := sharedBufferAccess_out.2 hok
    rw [hout, hj, Option.some.injEq, Except.ok.injEq]
    exact ⟨fun h => ⟨h, hok⟩, fun h => h.1⟩
  · rename_i hne
    constructor
    · intro h
      cases h
    · rintro ⟨-, hok⟩
      exact absurd hok hne

end

/-! ## What a step does with a handle -/

section
variable {P : Type}

/-- `lettuce_shared_buffer_create` returned OK with the handle `x`. -/
def Creates (s : BufferState P) (x : SharedBufferHandle) : BufferEvent → Prop
  | .create a => (sharedBufferCreate s.buffers s.currentServiceId a).2 = .ok x
  | _ => False

/-- The slot a handle names, whatever its generation. -/
def handleSlot (x : SharedBufferHandle) : Option Nat := (SlotHandle.decode sharedBufferCount x).map Prod.fst

/-- The slot a successful create takes, read off the handle it returns. -/
def createdSlot (s : BufferState P) : BufferEvent → Option Nat
  | .create a =>
    match (sharedBufferCreate s.buffers s.currentServiceId a).2 with
    | .ok handle => handleSlot handle
    | .error _ => none
  | _ => none

/-- `lettuce_shared_buffer_revoke(x)` returned OK. -/
def RevokesBuffer (s : BufferState P) (x : SharedBufferHandle) : BufferEvent → Prop
  | .revoke y => y = x ∧ (sharedBufferRevoke s.buffers s.currentServiceId y).2 = .ok
  | _ => False

/-- `lettuce_shared_buffer_init` found the buffer of `x` active. -/
def DiscardsBuffer (s : BufferState P) (x : SharedBufferHandle) : BufferEvent → Prop
  | .init => ∃ i, bufferSlot s.buffers x = .ok i
  | _ => False

/-- Anything that ends the buffer in slot `i`: an init, a revoke or another create. -/
def EndsSlot (i : Nat) (s : BufferState P) (e : BufferEvent) : Prop :=
  e = .init ∨ createdSlot s e = some i ∨ ∃ y, RevokesBuffer s y e ∧ handleSlot y = some i

/-- What the event stores into slot `i`. -/
def writesInto (s : BufferState P) (i : Nat) : BufferEvent → List PayloadWrite
  | .store handle capability offset byte =>
    if s.writable handle capability = some i ∧ offset < sharedBufferSize then [(offset, byte)] else []
  | _ => []

/-- The call is made with `x` and succeeds. -/
def AcceptsBuffer (s : BufferState P) (x : SharedBufferHandle) : BufferEvent → Prop
  | .access y capability write hasOut => y = x ∧
    (sharedBufferAccess s.toKernel s.buffers y capability write hasOut { data := none, size := 0 }).1 = .ok
  | .revoke y => y = x ∧ (sharedBufferRevoke s.buffers s.currentServiceId y).2 = .ok
  | .store y capability _ _ => y = x ∧ s.writable y capability ≠ none
  | _ => False

theorem handleSlot_make {i : Nat} (hi : i < sharedBufferCount) (g : BitVec 16) :
    handleSlot (SlotHandle.make i g) = some i := by
  rw [handleSlot, (SlotHandle.decode_eq_some (by decide)).2 ⟨hi, rfl⟩, Option.map_some]

theorem createdSlot_create {s : BufferState P} {a : CreateArgs} {i : Nat} :
    createdSlot s (.create a) = some i ↔ Creatable s.currentServiceId a ∧ firstInactive s.buffers = some i := by
  constructor
  · intro hi
    unfold createdSlot at hi
    dsimp only at hi
    split at hi
    · rename_i handle hok
      obtain ⟨j, hc, hj, rfl⟩ := sharedBufferCreate_ok hok
      rw [handleSlot_make (firstInactive_eq_some hj).1, Option.some.injEq] at hi
      exact ⟨hc, hi ▸ hj⟩
    · cases hi
  · rintro ⟨hc, hi⟩
    simp only [createdSlot, sharedBufferCreate_accepts hc hi]
    exact handleSlot_make (firstInactive_eq_some hi).1 _

theorem handleSlot_eq_some {x : SharedBufferHandle} {i : Nat} :
    handleSlot x = some i ↔ i < sharedBufferCount ∧ ∃ g, x = SlotHandle.make i g := by
  constructor
  · intro hx
    obtain ⟨⟨j, g⟩, hdecode, rfl⟩ := Option.map_eq_some_iff.1 hx
    obtain ⟨hlt, rfl⟩ := (SlotHandle.decode_eq_some (by decide)).1 hdecode
    exact ⟨hlt, g, rfl⟩
  · rintro ⟨hlt, g, rfl⟩
    exact handleSlot_make hlt g

theorem createdSlot_eq_some {s : BufferState P} {e : BufferEvent} {i : Nat} (hi : createdSlot s e = some i) :
    ∃ a, e = .create a ∧ Creatable s.currentServiceId a ∧ firstInactive s.buffers = some i := by
  cases e with
  | create a =>
    obtain ⟨hc, hfree⟩ := createdSlot_create.1 hi
    exact ⟨a, rfl, hc, hfree⟩
  | _ => cases hi

theorem AcceptsBuffer.slot {s : BufferState P} {x : SharedBufferHandle} {e : BufferEvent} (h : AcceptsBuffer s x e) :
    ∃ i, bufferSlot s.buffers x = .ok i := by
  cases e with
  | access y capability write hasOut =>
    obtain ⟨rfl, hok⟩ := h
    obtain ⟨i, hi, -⟩ := sharedBufferAccess_out.2 hok
    exact ⟨i, hi⟩
  | revoke y =>
    obtain ⟨rfl, hok⟩ := h
    rcases sharedBufferRevoke_cases s.buffers s.currentServiceId y with ⟨hne, -⟩ | ⟨i, hi, -⟩
    · exact absurd hok hne
    · exact ⟨i, hi⟩
  | store y capability offset byte =>
    obtain ⟨rfl, hsome⟩ := h
    obtain ⟨i, hi⟩ := Option.ne_none_iff_exists'.1 hsome
    exact ⟨i, (writable_eq_some.1 hi).1⟩
  | _ => exact h.elim

end

/-! ## What a step does to one slot -/

section
variable {P : Type}

/-- Only an init, a create and a revoke end buffers. -/
theorem EndsSlot.cases {s : BufferState P} {e : BufferEvent} {i : Nat} (h : EndsSlot i s e) :
    e = .init ∨ (∃ a, e = .create a) ∨ ∃ x, e = .revoke x := by
  rcases h with rfl | hi | ⟨y, hy, -⟩
  · exact Or.inl rfl
  · obtain ⟨a, rfl, -⟩ := createdSlot_eq_some hi
    exact Or.inr (Or.inl ⟨a, rfl⟩)
  · cases e with
    | revoke x => exact Or.inr (Or.inr ⟨x, rfl⟩)
    | _ => exact hy.elim

/-- Everything a step can do to slot `i`: the buffer lasts and gets what the step stores into it,
or it is cleared, created or revoked. -/
theorem bufferStep_slot (π : Protection P) (s : BufferState P) (e : BufferEvent) (i : Nat) :
    ((i < sharedBufferCount → ¬ EndsSlot i s e) ∧ (bufferStep π s e).buffers i =
      { s.buffers i with data := overlay (s.buffers i).data (writesInto s i e) }) ∨
    (e = .init ∧ (bufferStep π s e).buffers i = .cleared (SlotHandle.issuedGeneration (s.buffers i).generation)) ∨
    (∃ a, e = .create a ∧ Creatable s.currentServiceId a ∧ firstInactive s.buffers = some i ∧
      (bufferStep π s e).buffers i = a.buffer (SlotHandle.issuedGeneration (s.buffers i).generation)) ∨
    (∃ x, e = .revoke x ∧ bufferSlot s.buffers x = .ok i ∧ s.currentServiceId = (s.buffers i).owner ∧
      (bufferStep π s e).buffers i = (s.buffers i).revoked) := by
  cases e with
  | kernel e => exact Or.inl ⟨fun _ h => by simpa using h.cases, rfl⟩
  | access handle capability write hasOut => exact Or.inl ⟨fun _ h => by simpa using h.cases, rfl⟩
  | init =>
    by_cases hi : i < sharedBufferCount
    · exact Or.inr (Or.inl ⟨rfl, by simp only [bufferStep, sharedBufferInit, if_pos hi]⟩)
    · exact Or.inl ⟨fun h => absurd h hi, by simp only [bufferStep, sharedBufferInit, if_neg hi]; rfl⟩
  | create a =>
    by_cases hc : createdSlot s (.create a) = some i
    · obtain ⟨hargs, hfree⟩ := createdSlot_create.1 hc
      refine Or.inr (Or.inr (Or.inl ⟨a, rfl, hargs, hfree, ?_⟩))
      simp only [bufferStep, sharedBufferCreate_accepts hargs hfree, Function.update_self]
    · refine Or.inl ⟨fun _ h => ?_, ?_⟩
      · rcases h with he | hi | ⟨y, hy, -⟩
        · cases he
        · exact hc hi
        · exact hy
      · cases hres : (sharedBufferCreate s.buffers s.currentServiceId a).2 with
        | error status =>
          simp only [bufferStep, sharedBufferCreate_error hres]
          rfl
        | ok handle =>
          obtain ⟨j, hargs, hj, -⟩ := sharedBufferCreate_ok hres
          have hij : i ≠ j := by
            rintro rfl
            exact hc (createdSlot_create.2 ⟨hargs, hj⟩)
          simp only [bufferStep, sharedBufferCreate_accepts hargs hj, Function.update_of_ne hij]
          rfl
  | revoke x =>
    rcases sharedBufferRevoke_cases s.buffers s.currentServiceId x with ⟨hne, heq⟩ | ⟨j, hj, hcur, heq⟩
    · refine Or.inl ⟨fun _ h => ?_, by simp only [bufferStep, heq]; rfl⟩
      rcases h with he | hi | ⟨y, ⟨rfl, hok⟩, -⟩
      · cases he
      · cases hi
      · exact hne hok
    · by_cases hij : i = j
      · subst hij
        refine Or.inr (Or.inr (Or.inr ⟨x, rfl, hj, hcur, ?_⟩))
        simp only [bufferStep, heq, Function.update_self]
      · refine Or.inl ⟨fun _ h => ?_, by simp only [bufferStep, heq, Function.update_of_ne hij]; rfl⟩
        obtain ⟨hlt, -, hhandle⟩ := bufferSlot_eq_ok.1 hj
        rcases h with he | hi | ⟨y, ⟨rfl, -⟩, hy⟩
        · cases he
        · cases hi
        · rw [handleSlot_eq_some.2 ⟨hlt, _, hhandle⟩, Option.some.injEq] at hy
          exact hij hy.symm
  | store handle capability offset byte =>
    refine Or.inl ⟨fun _ h => by simpa using h.cases, ?_⟩
    simp only [bufferStep, writesInto]
    cases hw : s.writable handle capability with
    | none => simp [overlay]
    | some slot =>
      by_cases hoff : offset < sharedBufferSize
      · by_cases hij : i = slot
        · subst hij
          simp [storeByte, overlay, hoff]
        · simp [storeByte, overlay, hoff, Function.update_of_ne hij, Ne.symm hij]
      · simp [overlay, hoff]

end

/-! ## The buffer of memory_unit.c -/

/-- Service 10 creates it for service 20, with these two capabilities. -/
def unitBuffer : CreateArgs := ⟨10, 700, 128, 0x00010001, 0x00010002, true⟩

def unitCapabilities : List BufferEvent :=
  [.kernel .capabilityInit, .kernel (.capabilityCreate 20 10 0x100 capRead 700),
    .kernel (.capabilityCreate 20 10 0x101 capWrite 700)]

end Lettuce
