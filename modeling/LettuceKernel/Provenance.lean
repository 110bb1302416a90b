import LettuceKernel.Gates
/-!
# Where the authority of a mediated call comes from

Whenever a gate invokes an entry, everything that authorised the call can be found in the
history of kernel operations: the registrations of caller and target, the
`lettuce_dispatch_register` that stored the entry, and the `lettuce_capability_create` that
returned the presented handle, each with nothing since that takes it back.

The invariant (`Backed`) says this of every registered service, every stored operation and
every active capability slot, whether or not a gate is about to use it. It is kept by every
operation, so entries that revoke, unregister or register again in the middle of a call need
no case of their own.
-/

namespace Lettuce

open Runs

variable {P : Type}

abbrev GateHistory (P : Type) := List (GateState P × KernelEvent)

/-- `lettuce_service_registry_register(d)` returned true. -/
def Registers (d : ServiceDescriptor) (s : GateState P) (e : KernelEvent) : Prop :=
  e = .registryRegister d ∧ (registryRegister s.services d).2 = true

/-- Any call that takes service `id` out of the registry. -/
def Deregisters (id : ServiceId) (_ : GateState P) (e : KernelEvent) : Prop :=
  e = .registryInit ∨ e = .registryUnregister id

/-- `lettuce_dispatch_register(id, op, entry)` returned true. -/
def StoresEntry (id : ServiceId) (op : OperationId) (entry : Reg) (s : GateState P) (e : KernelEvent) : Prop :=
  e = .dispatchRegister id op entry ∧ (dispatchRegister s.services id op entry).2 = true

/-- Any call that removes or replaces the entry of `(id, op)`. -/
def DropsEntry (id : ServiceId) (op : OperationId) (s : GateState P) (e : KernelEvent) : Prop :=
  e = .registryInit ∨ e = .registryUnregister id ∨ e = .dispatchUnregister id op ∨
    ∃ entry, StoresEntry id op entry s e

/-- `lettuce_capability_create(owner, target, op, permissions, resource)` returned `handle`. -/
def Grants (handle : CapabilityHandle) (owner target : ServiceId) (op : OperationId) (permissions : BitVec 32)
    (resource : ResourceId) (s : GateState P) (e : KernelEvent) : Prop :=
  e = .capabilityCreate owner target op permissions resource ∧ handle ≠ 0 ∧
    (capabilityCreate s.caps owner target op permissions resource).2 = handle

/-- Any call that takes `handle` back. -/
def Withdraws (handle : CapabilityHandle) (_ : GateState P) (e : KernelEvent) : Prop :=
  e = .capabilityInit ∨ e = .capabilityRevoke handle

/-- The call with message `m` through a gate of this kind, made in state `k` after history `h`,
is entitled to run `entry`. -/
structure Authorized (h : GateHistory P) (k : Kernel) (kind : GateKind) (m : CallMessage) (entry : Reg) : Prop where
  services : ∃ caller target : ServiceDescriptor,
    registryLookup k.services k.currentServiceId = some caller ∧ caller.isActive = true ∧
    registryLookup k.services m.targetServiceId = some target ∧ target.isActive = true ∧
    (kind = .sameLayer → caller.layer = target.layer) ∧ (kind = .crossLayer → caller.layer ≠ target.layer) ∧
    Since (Registers caller) (Deregisters k.currentServiceId) h ∧
    Since (Registers target) (Deregisters m.targetServiceId) h
  dispatched : Since (StoresEntry m.targetServiceId m.operationId entry) (DropsEntry m.targetServiceId m.operationId) h
  granted : ∃ permissions, permissions &&& kind.permissions = kind.permissions ∧
    Since (Grants m.capabilityHandle k.currentServiceId m.targetServiceId m.operationId permissions m.resourceId)
      (Withdraws m.capabilityHandle) h

/-! ## Lookups after a change of the registry -/

theorem registryLookup_update_of_ne {s : ServiceTable} {id x : ServiceId} {e : RegistryEntry} (hx : x ≠ id) :
    registryLookup (Function.update s id.toNat e) x = registryLookup s x := by
  have hidx : x.toNat ≠ id.toNat := fun he => hx (BitVec.eq_of_toNat_eq he)
  simp [registryLookup, Function.update_of_ne hidx]

theorem registryLookup_update_zero {s : ServiceTable} {id : ServiceId} :
    registryLookup (Function.update s id.toNat .zero) id = none := by
  cases h : registryLookup (Function.update s id.toNat .zero) id with
  | none => rfl
  | some d => exact absurd (by simp [RegistryEntry.zero]) (registryLookup_descriptor_ne h)

/-! ## The registry -/

/-- Every registered service was registered and not taken out since. -/
def RegisteredBacked (h : GateHistory P) (s : ServiceTable) : Prop :=
  ∀ id d, registryLookup s id = some d → Since (Registers d) (Deregisters id) h

theorem RegisteredBacked.step {h : GateHistory P} {s : GateState P} (hb : RegisteredBacked h s.services)
    (e : KernelEvent) : RegisteredBacked ((s, e) :: h) (servicesStep s.services e) := by
  intro id d hl
  cases e with
  | registryInit => exact absurd rfl (registryLookup_descriptor_ne (s := registryInit) hl)
  | registryRegister d' =>
    have hnot : ¬ Deregisters id s (.registryRegister d') := by simp [Deregisters]
    rcases registryRegister_cases s.services d' with hr | ⟨-, -, hr⟩
    · simp only [servicesStep, hr] at hl
      exact since_later hnot (hb id d hl)
    · simp only [servicesStep, hr] at hl
      by_cases hid : id = d'.id
      · obtain ⟨-, -, -, hd⟩ := registryLookup_eq_some.1 hl
        rw [hid, Function.update_self] at hd
        exact since_now ⟨by rw [← hd], by rw [← hd, hr]⟩
      · rw [registryLookup_update_of_ne hid] at hl
        exact since_later hnot (hb id d hl)
  | registryUnregister id' =>
    rcases registryUnregister_cases s.services id' with ⟨hr, hnone⟩ | ⟨-, -, hr⟩
    · simp only [servicesStep, hr] at hl
      have hid : id ≠ id' := by rintro rfl; rw [hnone] at hl; cases hl
      exact since_later (by simp [Deregisters, hid.symm]) (hb id d hl)
    · simp only [servicesStep, hr] at hl
      by_cases hid : id = id'
      · subst hid; rw [registryLookup_update_zero] at hl; cases hl
      · rw [registryLookup_update_of_ne hid] at hl
        exact since_later (by simp [Deregisters, Ne.symm hid]) (hb id d hl)
  | dispatchRegister id' op entry =>
    refine since_later (by simp [Deregisters]) (hb id d ?_)
    rcases dispatchRegister_cases s.services id' op entry with hr | ⟨-, -, -, -, hr⟩
    · simpa only [servicesStep, hr] using hl
    · simpa only [servicesStep, hr, registryLookup_setOperation] using hl
  | dispatchUnregister id' op =>
    refine since_later (by simp [Deregisters]) (hb id d ?_)
    rcases dispatchUnregister_cases s.services id' op with ⟨hr, -⟩ | ⟨-, -, hr⟩
    · simpa only [servicesStep, hr] using hl
    · simpa only [servicesStep, hr, registryLookup_setOperation] using hl
  | _ => exact since_later (by simp [Deregisters]) (hb id d hl)

/-! ## The dispatch table -/

/-- Every active operation is a valid one of a registered service, and was stored and not
dropped since. -/
def StoredBacked (h : GateHistory P) (s : ServiceTable) : Prop :=
  ∀ (id : ServiceId) (op : OperationId) entry, (s id.toNat).operations op.toNat = ⟨entry, true⟩ →
    (op ≠ 0 ∧ op.toNat < dispatchOperationLimit) ∧ (registryLookup s id).isSome ∧
      Since (StoresEntry id op entry) (DropsEntry id op) h

section
variable {h : GateHistory P} {s : GateState P}

theorem dropsEntry_dispatchRegister {id id' : ServiceId} {op op' : OperationId} {entry : Reg}
    (h : DropsEntry id op s (.dispatchRegister id' op' entry)) :
    id = id' ∧ op = op' ∧ (dispatchRegister s.services id' op' entry).2 = true := by
  rcases h with h | h | h | ⟨x, h, hx⟩
  · cases h
  · cases h
  · cases h
  · cases h
    exact ⟨rfl, rfl, hx⟩

theorem dropsEntry_dispatchUnregister {id id' : ServiceId} {op op' : OperationId}
    (h : DropsEntry id op s (.dispatchUnregister id' op')) : id = id' ∧ op = op' := by
  rcases h with h | h | h | ⟨x, h, -⟩
  · cases h
  · cases h
  · cases h
    exact ⟨rfl, rfl⟩
  · cases h

/-- Writing one cell of the dispatch table leaves the others. -/
theorem setOperation_of_ne {t : ServiceTable} {id id' : ServiceId} {op op' : OperationId} (h : ¬ (id = id' ∧ op = op'))
    (cell : DispatchEntry) : (setOperation t id' op' cell id.toNat).operations op.toNat = (t id.toNat).operations op.toNat := by
  rw [setOperation_operations, if_neg]
  rintro ⟨hid, hop⟩
  exact h ⟨BitVec.eq_of_toNat_eq hid, BitVec.eq_of_toNat_eq hop⟩

/-- A step that neither touches the cell nor drops the entry. -/
theorem StoredBacked.keep (hb : StoredBacked h s.services) {e : KernelEvent}
    {id : ServiceId} {op : OperationId} {entry : Reg} (hold : (s.services id.toNat).operations op.toNat = ⟨entry, true⟩)
    (hnot : ¬ DropsEntry id op s e)
    (hreg : (registryLookup (servicesStep s.services e) id).isSome = (registryLookup s.services id).isSome) :
    (op ≠ 0 ∧ op.toNat < dispatchOperationLimit) ∧ (registryLookup (servicesStep s.services e) id).isSome ∧
      Since (StoresEntry id op entry) (DropsEntry id op) ((s, e) :: h) := by
  obtain ⟨hvalid, hregistered, hsince⟩ := hb id op entry hold
  exact ⟨hvalid, by rw [hreg, hregistered], since_later hnot hsince⟩

theorem StoredBacked.register (hb : StoredBacked h s.services)
    (d : ServiceDescriptor) : StoredBacked ((s, .registryRegister d) :: h) (servicesStep s.services (.registryRegister d)) := by
  intro id op entry hop
  have hnot : ¬ DropsEntry id op s (.registryRegister d) := by simp [DropsEntry, StoresEntry]
  rcases registryRegister_cases s.services d with hr | ⟨-, hfree, hr⟩
  · simp only [servicesStep, hr] at hop
    exact hb.keep hop hnot (by simp only [servicesStep, hr])
  · simp only [servicesStep, hr] at hop
    -- the slot was free, so by the invariant none of its operations is active
    have hid : id ≠ d.id := by
      rintro rfl
      rw [Function.update_self] at hop
      obtain ⟨d', hd'⟩ := Option.isSome_iff_exists.1 (hb _ op entry hop).2.1
      exact registryLookup_descriptor_ne hd' hfree
    have hidx : id.toNat ≠ d.id.toNat := fun he => hid (BitVec.eq_of_toNat_eq he)
    rw [Function.update_of_ne hidx] at hop
    exact hb.keep hop hnot (by simp only [servicesStep, hr, registryLookup_update_of_ne hid])

theorem StoredBacked.unregister (hb : StoredBacked h s.services)
    (id' : ServiceId) : StoredBacked ((s, .registryUnregister id') :: h) (servicesStep s.services (.registryUnregister id')) := by
  intro id op entry hop
  rcases registryUnregister_cases s.services id' with ⟨hr, hnone⟩ | ⟨-, -, hr⟩
  · simp only [servicesStep, hr] at hop
    have hid : id ≠ id' := by rintro rfl; simpa [hnone] using (hb id op entry hop).2.1
    exact hb.keep hop (by simp [DropsEntry, StoresEntry, hid.symm]) (by simp only [servicesStep, hr])
  · simp only [servicesStep, hr] at hop
    have hid : id ≠ id' := by
      rintro rfl
      simp [RegistryEntry.zero, DispatchEntry.zero] at hop
    have hidx : id.toNat ≠ id'.toNat := fun he => hid (BitVec.eq_of_toNat_eq he)
    rw [Function.update_of_ne hidx] at hop
    exact hb.keep hop (by simp [DropsEntry, StoresEntry, hid.symm])
      (by simp only [servicesStep, hr, registryLookup_update_of_ne hid])

theorem StoredBacked.dispatchRegister (hb : StoredBacked h s.services)
    (id' : ServiceId) (op' : OperationId) (entry' : Reg) :
    StoredBacked ((s, .dispatchRegister id' op' entry') :: h) (servicesStep s.services (.dispatchRegister id' op' entry')) := by
  intro id op entry hop
  rcases dispatchRegister_cases s.services id' op' entry' with hr | ⟨hreg, hop0, hopsz, -, hr⟩
  · simp only [servicesStep, hr] at hop
    refine hb.keep hop (fun hdrops => ?_) (by simp only [servicesStep, hr])
    have hok := (dropsEntry_dispatchRegister hdrops).2.2
    rw [hr] at hok
    cases hok
  · simp only [servicesStep, hr] at hop
    by_cases hcell : id = id' ∧ op = op'
    · obtain ⟨rfl, rfl⟩ := hcell
      simp only [setOperation_operations, and_self, ↓reduceIte, DispatchEntry.mk.injEq, and_true] at hop
      subst hop
      refine ⟨⟨hop0, hopsz⟩, ?_, since_now ⟨rfl, by rw [hr]⟩⟩
      simpa only [servicesStep, hr, registryLookup_setOperation] using hreg
    · rw [setOperation_of_ne hcell] at hop
      refine hb.keep hop (fun hdrops => ?_) (by simp only [servicesStep, hr, registryLookup_setOperation])
      obtain ⟨hid, hsame, -⟩ := dropsEntry_dispatchRegister hdrops
      exact hcell ⟨hid, hsame⟩

theorem StoredBacked.dispatchUnregister (hb : StoredBacked h s.services)
    (id' : ServiceId) (op' : OperationId) :
    StoredBacked ((s, .dispatchUnregister id' op') :: h) (servicesStep s.services (.dispatchUnregister id' op')) := by
  intro id op entry hop
  rcases dispatchUnregister_cases s.services id' op' with ⟨hr, hnone⟩ | ⟨-, -, hr⟩
  · simp only [servicesStep, hr] at hop
    refine hb.keep hop (fun hdrops => ?_) (by simp only [servicesStep, hr])
    obtain ⟨rfl, rfl⟩ := dropsEntry_dispatchUnregister hdrops
    obtain ⟨⟨h0, hsz⟩, hreg, -⟩ := hb id op entry hop
    rw [dispatchLookup_eq_some.2 ⟨h0, hsz, hreg, hop, rfl⟩] at hnone
    cases hnone
  · simp only [servicesStep, hr] at hop
    by_cases hcell : id = id' ∧ op = op'
    · obtain ⟨rfl, rfl⟩ := hcell
      simp [setOperation_operations, DispatchEntry.zero] at hop
    · rw [setOperation_of_ne hcell] at hop
      refine hb.keep hop (fun hdrops => ?_) (by simp only [servicesStep, hr, registryLookup_setOperation])
      exact hcell (dropsEntry_dispatchUnregister hdrops)

theorem StoredBacked.step (hb : StoredBacked h s.services)
    (e : KernelEvent) : StoredBacked ((s, e) :: h) (servicesStep s.services e) := by
  cases e with
  | registryInit =>
    intro id op entry hop
    simp [servicesStep, registryInit, RegistryEntry.zero, DispatchEntry.zero] at hop
  | registryRegister d => exact hb.register d
  | registryUnregister id' => exact hb.unregister id'
  | dispatchRegister id' op' entry' => exact hb.dispatchRegister id' op' entry'
  | dispatchUnregister id' op' => exact hb.dispatchUnregister id' op'
  | _ =>
    intro id op entry hop
    exact hb.keep hop (by simp [DropsEntry, StoresEntry]) rfl

end

/-! ## The capability table -/

/-- Every active slot was granted with the fields it holds, under the handle it answers to, and
not withdrawn since. -/
def GrantedBacked (h : GateHistory P) (c : CapabilityTable) : Prop :=
  ∀ slot : BitVec 16, slot.toNat < capabilityTableSize → ∀ x, c.entries slot.toNat = x → x.active = true →
    Since (Grants (makeHandle slot x.generation) x.owner x.target x.operation x.permissions x.resource)
      (Withdraws (makeHandle slot x.generation)) h

/-- A slot that is active after a step was granted by that step, or was active before it with the
same contents and is not withdrawn by it. -/
theorem granted_step {s : GateState P} {e : KernelEvent} {slot : BitVec 16} (hs : slot.toNat < capabilityTableSize)
    {x : CapabilityEntry} (hx : (capsStep s.caps e).entries slot.toNat = x) (hact : x.active = true) :
    Grants (makeHandle slot x.generation) x.owner x.target x.operation x.permissions x.resource s e ∨
      (s.caps.entries slot.toNat = x ∧ ¬ Withdraws (makeHandle slot x.generation) s e) := by
  cases e with
  | capabilityInit => subst hx; cases hact
  | capabilityCreate o t op p r =>
    have hnot : ¬ Withdraws (makeHandle slot x.generation) s (.capabilityCreate o t op p r) := by simp [Withdraws]
    by_cases hg : Grantable o t op p r ∧ 0 < s.caps.free.count
    · have hcreate := capabilityCreate_granted hg.1 hg.2
      simp only [capsStep, hcreate] at hx
      by_cases htop : slot = s.caps.free.top
      · subst htop
        rw [Function.update_self] at hx
        subst hx
        exact Or.inl ⟨rfl, makeHandle_ne_zero hs _, by rw [hcreate]⟩
      · have hidx : slot.toNat ≠ s.caps.free.top.toNat := fun he => htop (BitVec.eq_of_toNat_eq he)
        rw [Function.update_of_ne hidx] at hx
        exact Or.inr ⟨hx, hnot⟩
    · simp only [capsStep, capabilityCreate_refused hg] at hx
      exact Or.inr ⟨hx, hnot⟩
  | capabilityRevoke y =>
    right
    cases hl : liveEntry s.caps y with
    | none =>
      simp only [capsStep, capabilityRevoke_refused hl] at hx
      refine ⟨hx, ?_⟩
      -- a refused handle is not the one of an active slot
      rintro (h | h)
      · cases h
      · cases h
        rw [liveEntry_eq_some.2 ⟨slot, hs, hx, hact, rfl⟩] at hl
        cases hl
    | some e =>
      obtain ⟨slot', hs', rfl, hact', rfl⟩ := liveEntry_eq_some.1 hl
      simp only [capsStep, capabilityRevoke_live hs' hact'] at hx
      by_cases hslot : slot = slot'
      · subst hslot
        rw [Function.update_self] at hx
        subst hx
        cases hact
      · have hidx : slot.toNat ≠ slot'.toNat := fun he => hslot (BitVec.eq_of_toNat_eq he)
        rw [Function.update_of_ne hidx] at hx
        refine ⟨hx, ?_⟩
        rintro (h | h)
        · cases h
        · simp only [KernelEvent.capabilityRevoke.injEq] at h
          exact hslot (makeHandle_inj hs' h hs).1.symm
  | _ => exact Or.inr ⟨hx, by simp [Withdraws]⟩

theorem GrantedBacked.step {h : GateHistory P} {s : GateState P} (hb : GrantedBacked h s.caps)
    (e : KernelEvent) : GrantedBacked ((s, e) :: h) (capsStep s.caps e) := by
  intro slot hs x hx hact
  rcases granted_step hs hx hact with hgrant | ⟨hold, hnot⟩
  · exact since_now hgrant
  · exact since_later hnot (hb slot hs x hold hact)

/-! ## Every call -/

/-- What the tables hold is accounted for by the history. -/
structure Backed (h : GateHistory P) (s : GateState P) : Prop where
  registered : RegisteredBacked h s.services
  stored : StoredBacked h s.services
  granted : GrantedBacked h s.caps

theorem Backed.boot (p : P) : Backed [] { kernelBoot with protection := p, calls := [] } where
  registered := fun _ _ hl => absurd rfl (registryLookup_descriptor_ne (s := registryInit) hl)
  stored := fun _ _ _ hop => by
    simp [kernelBoot, registryInit, RegistryEntry.zero, DispatchEntry.zero] at hop
  granted := fun _ _ x hx hact => by subst hx; cases hact

theorem Backed.step {π : Protection P} {h : GateHistory P} {s : GateState P} (hb : Backed h s) (e : KernelEvent) :
    Backed ((s, e) :: h) (gateStep π s e) := by
  obtain ⟨hservices, hcaps⟩ := gateStep_tables π s e
  refine ⟨?_, ?_, ?_⟩
  · rw [hservices]; exact hb.registered.step e
  · rw [hservices]; exact hb.stored.step e
  · rw [hcaps]; exact hb.granted.step e

theorem Backed.run {π : Protection P} {p : P} {h : GateHistory P} {s : GateState P}
    (r : Run anyStep (gateStep π) { kernelBoot with protection := p, calls := [] } h s) : Backed h s :=
  r.historyInvariant (I := Backed) (Backed.boot p) fun _ _ e _ hb => hb.step e

theorem Backed.authorized {h : GateHistory P} {s : GateState P} (hb : Backed h s) {kind : GateKind} {m : CallMessage}
    {r : CallResolution} (hr : Resolved s.toKernel kind m r) : Authorized h s.toKernel kind m r.entry.entry where
  services := ⟨r.caller, r.target, hr.caller, hr.callerActive, hr.target, hr.targetActive, hr.sameLayer, hr.crossLayer,
    hb.registered _ _ hr.caller, hb.registered _ _ hr.target⟩
  dispatched := by
    obtain ⟨-, -, -, hop, hact⟩ := dispatchLookup_eq_some.1 hr.dispatch
    exact (hb.stored _ _ r.entry.entry (by rw [hop, ← hact])).2.2
  granted := by
    obtain ⟨x, hl, -, -, ho, ht, hop, hres, hperm⟩ := capabilityCheck_eq_true.1 hr.capability
    obtain ⟨slot, hs, hx, hact, hh⟩ := liveEntry_eq_some.1 hl
    have hsince := hb.granted slot hs x hx hact
    rw [← hh, ho, ht, hop, hres] at hsince
    exact ⟨x.permissions, hperm, hsince⟩

/-- **Authority has provenance**: in every run of kernel operations from power-on, with either
protection backend and with entries free to perform further operations, a gate that invokes
an entry does so for an active caller and an active target on the right layers, runs the
entry last stored for the operation, and was shown a handle that a `create` with the call's
own caller, target, operation and resource returned since the last `capability_init`. -/
theorem gate_call_authorized (π : Protection P) (p : P) {h : GateHistory P} {s : GateState P}
    (r : Run anyStep (gateStep π) { kernelBoot with protection := p, calls := [] } h s)
    (call : GateCall) (res : CallResolution) (hres : gateResolve s.toKernel call = .ok res) :
    ∃ m, call.message = some m ∧ Authorized h s.toKernel call.kind m res.entry.entry := by
  obtain ⟨m, hm, hr⟩ := gateResolve_ok hres
  exact ⟨m, hm, (Backed.run r).authorized hr⟩

/-- The set-up of `same_layer_unit.c`: two services on one layer, one operation, one CALL
capability. -/
def sameLayerSetUp : List KernelEvent :=
  [.registryInit, .registryRegister ⟨10, 1, 100, 1⟩, .registryRegister ⟨20, 1, 200, 1⟩, .capabilityInit,
    .dispatchRegister 20 1 0x1000, .capabilityCreate 10 20 1 1 30, .setCurrentServiceId 10]

/-- The hosted build after that set-up. -/
def sameLayerRun : GateHistory DomainId × GateState DomainId :=
  traceFrom (gateStep hostProtection) [] { kernelBoot with protection := 0, calls := [] } sameLayerSetUp

/-- There the gate invokes the stored entry, and the history accounts for it. -/
theorem gate_call_authorized_same_layer :
    Authorized sameLayerRun.1 sameLayerRun.2.toKernel .sameLayer ⟨20, 1, 30, 0x00010001⟩ 0x1000 := by
  have r : Run anyStep (gateStep hostProtection) { kernelBoot with protection := 0, calls := [] }
      sameLayerRun.1 sameLayerRun.2 := Run.start.trace (admits_anyStep _ _)
  have hres : gateResolve sameLayerRun.2.toKernel (.sameLayer ⟨20, 1, 30, 0x00010001⟩) =
      .ok ⟨⟨10, 1, 100, 1⟩, ⟨20, 1, 200, 1⟩, ⟨0x1000, true⟩⟩ := by rfl
  obtain ⟨m, hm, ha⟩ := gate_call_authorized hostProtection 0 r _ _ hres
  cases hm
  exact ha

end Lettuce
