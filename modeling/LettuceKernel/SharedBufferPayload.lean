import LettuceKernel.SharedBuffer
/-!
# What a shared buffer shows

"Zero payload on reuse to prevent cross-service information leakage" (buffer.c:113). The
payload that an access shows is the zero page with the bytes stored since the last create of
the slot, and nothing else: whatever was stored before has no influence on it, in this slot or
in another.

The second half compares two runs. They make the same calls, but may store different bytes at
different places before the slot is created; `withoutPayload` is what both have in common.
-/

namespace Lettuce

open Runs

section
variable {P : Type}

/-- What was stored into slot `i` after its most recent create; `none` if it was never created. -/
def writesSinceCreate (i : Nat) : BufferHistory P → Option (List PayloadWrite)
  | [] => none
  | (s, e) :: h =>
    if createdSlot s e = some i then some [] else (writesSinceCreate i h).map (· ++ writesInto s i e)

/-- The slot and payload an access shows. -/
def BufferState.visible (s : BufferState P) (handle : SharedBufferHandle) (capability : CapabilityHandle)
    (write : Bool) : Option (Nat × (Nat → BitVec 8)) :=
  let result := sharedBufferAccess s.toKernel s.buffers handle capability write true { data := none, size := 0 }
  if result.1 = .ok then result.2.data.map fun i => (i, (s.buffers i).data) else none

/-! ## One run -/

variable {π : Protection P} {h : BufferHistory P} {s : BufferState P}

theorem visible_eq_some {handle : SharedBufferHandle} {capability : CapabilityHandle} {write : Bool} {i : Nat}
    {d : Nat → BitVec 8} :
    s.visible handle capability write = some (i, d) ↔
      (sharedBufferAccess s.toKernel s.buffers handle capability write true { data := none, size := 0 }).1 = .ok ∧
        bufferSlot s.buffers handle = .ok i ∧ d = (s.buffers i).data := by
  unfold BufferState.visible
  dsimp only
  split
  · rename_i hok
    obtain ⟨j, hj, hout⟩ := sharedBufferAccess_out.2 hok
    simp only [hout, hj, Option.map_some, Option.some.injEq, Prod.mk.injEq, Except.ok.injEq, hok, true_and]
    constructor
    · rintro ⟨rfl, rfl⟩
      exact ⟨rfl, rfl⟩
    · rintro ⟨rfl, rfl⟩
      exact ⟨rfl, rfl⟩
  · rename_i hne
    constructor
    · intro h
      cases h
    · rintro ⟨hok, -⟩
      exact absurd hok hne

/-- A slot that is active after a step was created by it, with a payload of zeros, or was active
before and got what the step stores. -/
theorem bufferStep_payload (π : Protection P) (s : BufferState P) (e : BufferEvent) {i : Nat}
    (hi : i < sharedBufferCount) (hact : ((bufferStep π s e).buffers i).active = true) :
    (createdSlot s e = some i ∧ ((bufferStep π s e).buffers i).data = fun _ => 0) ∨
    (createdSlot s e ≠ some i ∧ (s.buffers i).active = true ∧
      ((bufferStep π s e).buffers i).data = overlay (s.buffers i).data (writesInto s i e)) := by
  rcases bufferStep_slot π s e i with ⟨hlasts, heq⟩ | ⟨-, heq⟩ | ⟨a, rfl, hargs, hfree, heq⟩ | ⟨x, -, -, -, heq⟩ <;>
    rw [heq] at hact ⊢
  · exact Or.inr ⟨fun hc => hlasts hi (Or.inr (Or.inl hc)), hact, rfl⟩
  · cases hact
  · exact Or.inl ⟨createdSlot_create.2 ⟨hargs, hfree⟩, rfl⟩
  · cases hact

/-- An active slot holds zeros and what was stored since its create. -/
def PayloadRep (h : BufferHistory P) (s : BufferState P) : Prop :=
  ∀ i, i < sharedBufferCount → (s.buffers i).active = true →
    ∃ writes, writesSinceCreate i h = some writes ∧ (s.buffers i).data = overlay (fun _ => 0) writes

theorem PayloadRep.step (hp : PayloadRep h s) (e : BufferEvent) : PayloadRep ((s, e) :: h) (bufferStep π s e) := by
  intro i hi hact
  rcases bufferStep_payload π s e hi hact with ⟨hc, hdata⟩ | ⟨hc, hbefore, hdata⟩
  · exact ⟨[], by rw [writesSinceCreate, if_pos hc], hdata⟩
  · obtain ⟨writes, hwrites, heq⟩ := hp i hi hbefore
    refine ⟨writes ++ writesInto s i e, ?_, ?_⟩
    · rw [writesSinceCreate, if_neg hc, hwrites]
      rfl
    · rw [hdata, heq, overlay, overlay, overlay, List.foldl_append]

theorem payloadRep_run {p : P} (r : Run anyStep (bufferStep π) (bufferMachineBoot p) h s) : PayloadRep h s := by
  refine r.historyInvariant (I := PayloadRep) ?_ fun h s e _ hp => hp.step e
  intro i _ hact
  cases hact

/-! ## Two runs -/

def SharedBuffer.withoutPayload (buffer : SharedBuffer) : SharedBuffer := { buffer with data := fun _ => 0 }

/-- Everything but the payloads. -/
def BufferState.withoutPayload (s : BufferState P) : BufferState P :=
  { s with buffers := fun i => (s.buffers i).withoutPayload }

/-- The event is a call, not a byte stored through a pointer. -/
def BufferEvent.isCall : BufferEvent → Bool
  | .store .. => false
  | _ => true

theorem withoutPayload_update (b : BufferTable) (i : Nat) (v : SharedBuffer) :
    (fun j => (Function.update b i v j).withoutPayload) =
      Function.update (fun j => (b j).withoutPayload) i v.withoutPayload := by
  funext j
  by_cases hij : j = i
  · subst hij
    simp only [Function.update_self]
  · simp only [Function.update_of_ne hij]

/-- No call reads a payload. -/
theorem withoutPayload_access (s : BufferState P) (handle : SharedBufferHandle) (capability : CapabilityHandle)
    (write hasOut : Bool) (out : AccessOut) :
    sharedBufferAccess s.withoutPayload.toKernel s.withoutPayload.buffers handle capability write hasOut out =
      sharedBufferAccess s.toKernel s.buffers handle capability write hasOut out := rfl

theorem withoutPayload_createdSlot (s : BufferState P) (e : BufferEvent) :
    createdSlot s.withoutPayload e = createdSlot s e := by
  cases e with
  | create a =>
    have hiff : ∀ i, createdSlot s.withoutPayload (.create a) = some i ↔ createdSlot s (.create a) = some i :=
      fun i => (createdSlot_create (s := s.withoutPayload)).trans (createdSlot_create (s := s)).symm
    exact Option.ext hiff
  | _ => rfl

theorem withoutPayload_writesInto (s : BufferState P) (i : Nat) (e : BufferEvent) :
    writesInto s.withoutPayload i e = writesInto s i e := by
  cases e <;> rfl

/-- Stores change nothing but payloads. -/
theorem bufferStep_store (π : Protection P) (s : BufferState P) {e : BufferEvent} (he : e.isCall = false) :
    (bufferStep π s e).withoutPayload = s.withoutPayload := by
  cases e with
  | store handle capability offset byte =>
    simp only [bufferStep]
    split
    · rfl
    · split
      · simp only [BufferState.withoutPayload, storeByte, withoutPayload_update]
        congr 1
        exact Function.update_eq_self _ _
      · rfl
  | _ => cases he

/-- What a step leaves, payloads apart, depends on what was there, payloads apart. -/
theorem bufferStep_withoutPayload (π : Protection P) (s : BufferState P) (e : BufferEvent) :
    (bufferStep π s.withoutPayload e).withoutPayload = (bufferStep π s e).withoutPayload := by
  cases e with
  | kernel e => rfl
  | access handle capability write hasOut => rfl
  | init =>
    simp only [bufferStep, BufferState.withoutPayload, sharedBufferInit]
    congr 1
    funext i
    split <;> rfl
  | create a =>
    cases hres : (sharedBufferCreate s.buffers s.currentServiceId a).2 with
    | ok handle =>
      obtain ⟨i, hc, hi, -⟩ := sharedBufferCreate_ok hres
      have hwithout := sharedBufferCreate_accepts (b := s.withoutPayload.buffers) hc hi
      simp only [BufferState.withoutPayload] at hwithout
      simp only [bufferStep, BufferState.withoutPayload, sharedBufferCreate_accepts hc hi, hwithout,
        withoutPayload_update]
      rfl
    | error status =>
      cases hres' : (sharedBufferCreate s.withoutPayload.buffers s.currentServiceId a).2 with
      | ok handle =>
        obtain ⟨i, hc, hi, -⟩ := sharedBufferCreate_ok hres'
        rw [sharedBufferCreate_accepts (b := s.buffers) hc hi] at hres
        cases hres
      | error status =>
        have hsame := sharedBufferCreate_error hres
        have hsame' := sharedBufferCreate_error hres'
        simp only [BufferState.withoutPayload] at hsame'
        simp only [bufferStep, BufferState.withoutPayload, hsame, hsame']
        rfl
  | revoke handle =>
    have hslot : bufferSlot s.withoutPayload.buffers handle = bufferSlot s.buffers handle := rfl
    simp only [bufferStep, sharedBufferRevoke]
    rw [hslot]
    cases bufferSlot s.buffers handle with
    | error status => rfl
    | ok i =>
      dsimp only
      by_cases hcur : s.currentServiceId = (s.buffers i).owner
      · have hcur' : s.withoutPayload.currentServiceId = (s.withoutPayload.buffers i).owner := hcur
        rw [if_neg (not_not.2 hcur), if_neg (not_not.2 hcur')]
        simp only [BufferState.withoutPayload, withoutPayload_update]
        rfl
      · have hcur' : s.withoutPayload.currentServiceId ≠ (s.withoutPayload.buffers i).owner := hcur
        rw [if_pos hcur, if_pos hcur']
        rfl
  | store handle capability offset byte =>
    rw [bufferStep_store π _ rfl, bufferStep_store π _ rfl]
    rfl

/-- The calls of a run decide everything but the payloads. -/
theorem traceFrom_withoutPayload (π : Protection P) (es : List BufferEvent) (h h' : BufferHistory P)
    {s s' : BufferState P} (hs : s.withoutPayload = s'.withoutPayload) :
    (traceFrom (bufferStep π) h s es).2.withoutPayload =
      (traceFrom (bufferStep π) h' s' (es.filter BufferEvent.isCall)).2.withoutPayload := by
  induction es generalizing h h' s s' with
  | nil => exact hs
  | cons e es ih =>
    cases he : e.isCall with
    | true =>
      rw [List.filter_cons_of_pos he]
      apply ih
      rw [← bufferStep_withoutPayload, hs, bufferStep_withoutPayload]
    | false =>
      rw [List.filter_cons_of_neg (by simp [he])]
      apply ih
      rw [bufferStep_store π s he, hs]

/-- The two states differ in payloads only, and not in the one of slot `i` while it is active. -/
structure AgreeOn (i : Nat) (s s' : BufferState P) : Prop where
  rest : s.withoutPayload = s'.withoutPayload
  payload : (s.buffers i).active = true → (s.buffers i).data = (s'.buffers i).data

section
variable {s' : BufferState P} {i : Nat}

theorem active_of_rest (hs : s.withoutPayload = s'.withoutPayload) (i : Nat) :
    (s.buffers i).active = (s'.buffers i).active := by
  change (s.withoutPayload.buffers i).active = (s'.withoutPayload.buffers i).active
  rw [hs]

theorem bufferStep_rest (π : Protection P) (hs : s.withoutPayload = s'.withoutPayload) (e : BufferEvent) :
    (bufferStep π s e).withoutPayload = (bufferStep π s' e).withoutPayload := by
  rw [← bufferStep_withoutPayload, hs, bufferStep_withoutPayload]

/-- The create wipes out what the payloads had before. -/
theorem agreeOn_create (π : Protection P) (hs : s.withoutPayload = s'.withoutPayload) {e : BufferEvent}
    (hi : i < sharedBufferCount) (he : createdSlot s e = some i) : AgreeOn i (bufferStep π s e) (bufferStep π s' e) := by
  have hrest := bufferStep_rest π hs e
  have he' : createdSlot s' e = some i := by
    rw [← withoutPayload_createdSlot, ← hs, withoutPayload_createdSlot, he]
  refine ⟨hrest, fun hact => ?_⟩
  have hact' := hact
  rw [active_of_rest hrest i] at hact'
  rcases bufferStep_payload π s e hi hact with ⟨-, hdata⟩ | ⟨hne, -⟩
  · rcases bufferStep_payload π s' e hi hact' with ⟨-, hdata'⟩ | ⟨hne', -⟩
    · rw [hdata, hdata']
    · exact absurd he' hne'
  · exact absurd he hne

theorem AgreeOn.step (π : Protection P) (hi : i < sharedBufferCount) (ha : AgreeOn i s s') (e : BufferEvent) :
    AgreeOn i (bufferStep π s e) (bufferStep π s' e) := by
  have hrest := bufferStep_rest π ha.rest e
  have hcreated : createdSlot s' e = createdSlot s e := by
    rw [← withoutPayload_createdSlot, ← ha.rest, withoutPayload_createdSlot]
  have hwrites : writesInto s' i e = writesInto s i e := by
    rw [← withoutPayload_writesInto, ← ha.rest, withoutPayload_writesInto]
  by_cases he : createdSlot s e = some i
  · exact agreeOn_create π ha.rest hi he
  · refine ⟨hrest, fun hact => ?_⟩
    have hact' := hact
    rw [active_of_rest hrest i] at hact'
    rcases bufferStep_payload π s e hi hact with ⟨hc, -⟩ | ⟨-, hbefore, hdata⟩
    · exact absurd hc he
    · rcases bufferStep_payload π s' e hi hact' with ⟨hc, -⟩ | ⟨-, -, hdata'⟩
      · exact absurd (hcreated ▸ hc) he
      · rw [hdata, hdata', hwrites, ha.payload hbefore]

theorem AgreeOn.trace (π : Protection P) (hi : i < sharedBufferCount) (ha : AgreeOn i s s') (es : List BufferEvent)
    (h h' : BufferHistory P) :
    AgreeOn i (traceFrom (bufferStep π) h s es).2 (traceFrom (bufferStep π) h' s' es).2 := by
  induction es generalizing h h' s s' with
  | nil => exact ha
  | cons e es ih => exact ih (ha.step π hi e) _ _

/-- Agreeing states answer every access alike, and show the same in slot `i`. -/
theorem AgreeOn.visible (ha : AgreeOn i s s') {handle : SharedBufferHandle} {capability : CapabilityHandle}
    {write : Bool} {d : Nat → BitVec 8} (hv : s.visible handle capability write = some (i, d)) :
    s'.visible handle capability write = some (i, d) := by
  obtain ⟨hok, hslot, rfl⟩ := visible_eq_some.1 hv
  have hslot' : bufferSlot s'.withoutPayload.buffers handle = .ok i := by
    rw [← ha.rest]
    exact hslot
  refine visible_eq_some.2 ⟨?_, hslot', ha.payload (bufferSlot_eq_ok.1 hslot).2.1⟩
  rw [← withoutPayload_access, ← ha.rest]
  exact hok

end

/-- The state after the events, from power-on. -/
def bufferRun (π : Protection P) (p : P) (es : List BufferEvent) : BufferState P :=
  (traceFrom (bufferStep π) [] (bufferMachineBoot p) es).2

end

/-- **No data leaks between the lifetimes of a shared buffer**: after every run from power-on,
what an access shows is a payload of zeros overlaid with the bytes stored since the most recent
create of the slot. And two runs that make the same calls and store the same bytes from some
create of the slot on show the same in it, whatever they stored before. -/
theorem shared_buffer_payload_fresh {P : Type} (π : Protection P) (p : P) :
    (∀ h s, Run anyStep (bufferStep π) (bufferMachineBoot p) h s →
      ∀ handle capability write i d, s.visible handle capability write = some (i, d) →
        ∃ writes, writesSinceCreate i h = some writes ∧ d = overlay (fun _ => 0) writes) ∧
    (∀ before before' e after i, before.filter BufferEvent.isCall = before'.filter BufferEvent.isCall →
      createdSlot (bufferRun π p before) e = some i →
      ∀ handle capability write d,
        (bufferRun π p (before ++ e :: after)).visible handle capability write = some (i, d) →
        (bufferRun π p (before' ++ e :: after)).visible handle capability write = some (i, d)) := by
  constructor
  · intro h s r handle capability write i d hv
    obtain ⟨-, hslot, rfl⟩ := visible_eq_some.1 hv
    exact payloadRep_run r i (bufferSlot_eq_ok.1 hslot).1 (bufferSlot_eq_ok.1 hslot).2.1
  · intro before before' e after i hcalls he handle capability write d hv
    have hrest : (bufferRun π p before).withoutPayload = (bufferRun π p before').withoutPayload := by
      rw [bufferRun, bufferRun, traceFrom_withoutPayload π before [] [] rfl, hcalls,
        ← traceFrom_withoutPayload π before' [] [] rfl]
    obtain ⟨a, -, -, hfree⟩ := createdSlot_eq_some he
    have hi := (firstInactive_eq_some hfree).1
    have hagree := (agreeOn_create π hrest hi he).trace π hi after
    simp only [bufferRun, traceFrom_append] at hv ⊢
    exact (hagree _ _).visible hv

/-- Service 20 stores a byte into the buffer before it is revoked. -/
def secretCalls (byte : BitVec 8) : List BufferEvent :=
  unitCapabilities ++ [.kernel (.setCurrentServiceId 10), .create unitBuffer, .kernel (.setCurrentServiceId 20),
    .store 0x00010001 0x00010002 5 byte, .kernel (.setCurrentServiceId 10), .revoke 0x00010001]

/-- In the next buffer it stores another one. -/
def laterCalls : List BufferEvent := [.kernel (.setCurrentServiceId 20), .store 0x00020001 0x00010002 7 0x55]

theorem shared_buffer_payload_fresh_secret :
    ∃ d, (bufferRun hostProtection 0 (secretCalls 0xAA ++ .create unitBuffer :: laterCalls)).visible
        0x00020001 0x00010001 false = some (0, d) ∧
      (bufferRun hostProtection 0 (secretCalls 0 ++ .create unitBuffer :: laterCalls)).visible
        0x00020001 0x00010001 false = some (0, d) ∧ d 5 = 0 ∧ d 7 = 0x55 := by
  refine ⟨((bufferRun hostProtection 0 (secretCalls 0xAA ++ .create unitBuffer :: laterCalls)).buffers 0).data,
    by rfl, ?_, by decide +kernel, by decide +kernel⟩
  exact (shared_buffer_payload_fresh hostProtection 0).2 (secretCalls 0xAA) (secretCalls 0) (.create unitBuffer)
    laterCalls 0 (by rfl) (by rfl) 0x00020001 0x00010001 false _ (by rfl)

end Lettuce
