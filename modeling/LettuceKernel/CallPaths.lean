import LettuceKernel.Gates
import LettuceKernel.RegistryMap
/-!
# The three call paths partition the requests

`lettuce_same_layer_validate`, `lettuce_cross_layer_validate` and `lettuce_elevator_policy` were
written one by one: they check overlapping conditions in different orders, and each has guards
the others lack (null ids and the invalid handle in the first, the null entry in the other
two). In the states the kernel can reach the extra guards never decide: each path accepts
exactly the requests that are `Resolved` under its own layer rule and permissions and name a
resource.
-/

namespace Lettuce

open Runs

/-! ## The registry of every reachable state -/

theorem ServiceTable.WellFormed.servicesStep {t : ServiceTable} (hw : t.WellFormed) (e : KernelEvent) :
    (servicesStep t e).WellFormed := by
  cases e with
  | registryInit => exact fun i => RegistryEntry.zero_wellFormed i
  | registryRegister d => exact hw.register d
  | registryUnregister id => exact hw.unregister id
  | dispatchRegister id op entry => exact hw.dispatchRegister id op entry
  | dispatchUnregister id op => exact hw.dispatchUnregister id op
  | _ => exact hw

theorem services_wellFormed {P : Type} {π : Protection P} {p : P} {h : List (GateState P × KernelEvent)}
    {s : GateState P} (r : Run anyStep (gateStep π) { kernelBoot with protection := p, calls := [] } h s) :
    s.services.WellFormed := by
  refine r.invariant (I := fun s => s.services.WellFormed) (fun i => RegistryEntry.zero_wellFormed i) ?_
  intro s e _ hs
  rw [(gateStep_tables π s e).1]
  exact hs.servicesStep e

/-- A dispatched operation has an entry. -/
theorem ServiceTable.WellFormed.entry_ne {t : ServiceTable} (hw : t.WellFormed) {id : ServiceId} {op : OperationId}
    {e : DispatchEntry} (h : dispatchLookup t id op = some e) : e.entry ≠ 0 := by
  obtain ⟨-, -, -, rfl, hact⟩ := dispatchLookup_eq_some.1 h
  exact ((hw _).operation _ hact).2.2.1

/-! ## Each validator as one condition -/

section
variable {k : Kernel} {m : CallMessage} {r : CallResolution}

theorem sameLayerValidate_resource
    (h : sameLayerValidate k m.targetServiceId m.operationId m.resourceId m.capabilityHandle = .ok r) :
    m.resourceId ≠ 0 := by
  intro h0
  unfold sameLayerValidate at h
  simp only [h0, ↓reduceIte] at h
  repeat' split at h
  all_goals cases h

theorem sameLayerValidate_dispatch
    (h : sameLayerValidate k m.targetServiceId m.operationId m.resourceId m.capabilityHandle = .ok r) :
    dispatchLookup k.services m.targetServiceId m.operationId = some r.entry := by
  unfold sameLayerValidate at h
  repeat' split at h
  all_goals cases h
  assumption

theorem crossLayerValidate_resource (h : crossLayerValidate k (some m) = .ok r) : m.resourceId ≠ 0 := by
  intro h0
  simp only [crossLayerValidate, h0, ↓reduceIte] at h
  repeat' split at h
  all_goals cases h

theorem elevatorPolicy_resource (h : elevatorPolicy k (some m) = .ok r) : m.resourceId ≠ 0 := by
  intro h0
  simp only [elevatorPolicy, h0, ↓reduceIte] at h
  repeat' split at h
  all_goals cases h

theorem Resolved.currentServiceId_ne {kind : GateKind} (hr : Resolved k kind m r) : k.currentServiceId ≠ 0 :=
  (registryLookup_eq_some.1 hr.caller).1

theorem Resolved.targetServiceId_ne {kind : GateKind} (hr : Resolved k kind m r) : m.targetServiceId ≠ 0 :=
  (registryLookup_eq_some.1 hr.target).1

theorem Resolved.operationId_ne {kind : GateKind} (hr : Resolved k kind m r) : m.operationId ≠ 0 :=
  (dispatchLookup_eq_some.1 hr.dispatch).1

/-- The invalid handle never passes a check. -/
theorem Resolved.capabilityHandle_ne {kind : GateKind} (hr : Resolved k kind m r) : m.capabilityHandle ≠ 0 := by
  intro h0
  obtain ⟨e, hl, -⟩ := capabilityCheck_eq_true.1 hr.capability
  obtain ⟨slot, hs, -, -, hh⟩ := liveEntry_eq_some.1 hl
  exact makeHandle_ne_zero hs _ (hh.symm.trans h0)

/-- With entries that are never null, the null check of the gate is not needed. -/
theorem sameLayerValidate_iff (hw : k.services.WellFormed) :
    sameLayerValidate k m.targetServiceId m.operationId m.resourceId m.capabilityHandle = .ok r ↔
      Resolved k .sameLayer m r ∧ m.resourceId ≠ 0 := by
  constructor
  · intro h
    exact ⟨sameLayerValidate_ok h (hw.entry_ne (sameLayerValidate_dispatch h)), sameLayerValidate_resource h⟩
  · rintro ⟨hr, h0⟩
    have hcheck : k.capabilityCheck m.capabilityHandle m.targetServiceId m.operationId capCall m.resourceId = true :=
      hr.capability
    simp only [sameLayerValidate, if_neg hr.currentServiceId_ne, hr.caller, hr.callerActive,
      if_neg hr.targetServiceId_ne, hr.target, hr.targetActive, if_neg (not_not.2 (hr.sameLayer rfl)),
      if_neg hr.operationId_ne, if_neg h0, if_neg hr.capabilityHandle_ne, hcheck, hr.dispatch,
      Bool.not_true, Bool.false_eq_true, ↓reduceIte]

theorem crossLayerValidate_iff :
    crossLayerValidate k (some m) = .ok r ↔ Resolved k .crossLayer m r ∧ m.resourceId ≠ 0 := by
  constructor
  · intro h
    exact ⟨crossLayerValidate_ok h, crossLayerValidate_resource h⟩
  · rintro ⟨hr, h0⟩
    have hcheck : k.capabilityCheck m.capabilityHandle m.targetServiceId m.operationId capCall m.resourceId = true :=
      hr.capability
    simp only [crossLayerValidate, hr.caller, hr.callerActive, hr.target, hr.targetActive,
      if_neg (hr.crossLayer rfl), if_neg hr.operationId_ne, if_neg h0, hcheck, hr.dispatch, if_neg hr.entry,
      Bool.not_true, Bool.false_eq_true, ↓reduceIte]

theorem elevatorPolicy_iff :
    elevatorPolicy k (some m) = .ok r ↔ Resolved k .elevator m r ∧ m.resourceId ≠ 0 := by
  constructor
  · intro h
    exact ⟨elevatorPolicy_ok h, elevatorPolicy_resource h⟩
  · rintro ⟨hr, h0⟩
    have hcheck : k.capabilityCheck m.capabilityHandle m.targetServiceId m.operationId (capCall ||| capCritical)
      m.resourceId = true := hr.capability
    simp only [elevatorPolicy, hr.caller, hr.callerActive, hr.target, hr.targetActive, if_neg hr.operationId_ne,
      if_neg h0, hcheck, hr.dispatch, if_neg hr.entry, Bool.not_true, Bool.or_self, Bool.false_eq_true, ↓reduceIte]

end

/-! ## The elevator asks for CRITICAL and nothing about layers -/

theorem and_or_eq_iff {p a b : BitVec 32} : p &&& (a ||| b) = a ||| b ↔ p &&& a = a ∧ p &&& b = b := by
  constructor
  · intro h
    have hbit : ∀ i, (p.getLsbD i && (a.getLsbD i || b.getLsbD i)) = (a.getLsbD i || b.getLsbD i) := by
      intro i
      simpa using congrArg (fun w => BitVec.getLsbD w i) h
    constructor
    · apply BitVec.eq_of_getLsbD_eq
      intro i _
      cases ha : a.getLsbD i with
      | false => simp [ha]
      | true => simpa [ha] using hbit i
    · apply BitVec.eq_of_getLsbD_eq
      intro i _
      cases hb : b.getLsbD i with
      | false => simp [hb]
      | true => simpa [hb] using hbit i
  · rintro ⟨ha, hb⟩
    rw [BitVec.and_or_distrib_left, ha, hb]

/-- The capability the handle names carries CRITICAL. -/
def CarriesCritical (k : Kernel) (handle : CapabilityHandle) : Prop :=
  ∃ e, liveEntry k.caps handle = some e ∧ e.permissions &&& capCritical = capCritical

theorem capabilityCheck_critical {k : Kernel} {handle : CapabilityHandle} {target : ServiceId} {op : OperationId}
    {resource : ResourceId} :
    k.capabilityCheck handle target op (capCall ||| capCritical) resource = true ↔
      k.capabilityCheck handle target op capCall resource = true ∧ CarriesCritical k handle := by
  unfold Kernel.capabilityCheck CarriesCritical
  rw [capabilityCheck_eq_true, capabilityCheck_eq_true]
  constructor
  · rintro ⟨e, hl, -, hcur, ho, ht, hop, hres, hperm⟩
    obtain ⟨hcall, hcrit⟩ := and_or_eq_iff.1 hperm
    exact ⟨⟨e, hl, by decide, hcur, ho, ht, hop, hres, hcall⟩, e, hl, hcrit⟩
  · rintro ⟨⟨e, hl, -, hcur, ho, ht, hop, hres, hcall⟩, e', hl', hcrit⟩
    obtain rfl : e = e' := Option.some.inj (hl.symm.trans hl')
    exact ⟨e, hl, by decide, hcur, ho, ht, hop, hres, and_or_eq_iff.2 ⟨hcall, hcrit⟩⟩

section
variable {k : Kernel} {m : CallMessage} {r : CallResolution}

/-- What the elevator resolves, the path of its layers resolves alike. -/
theorem Resolved.of_elevator (hr : Resolved k .elevator m r) :
    Resolved k (if r.caller.layer = r.target.layer then .sameLayer else .crossLayer) m r := by
  have hcall := (capabilityCheck_critical.1 hr.capability).1
  split
  · rename_i hlayer
    exact ⟨hr.caller, hr.callerActive, hr.target, hr.targetActive, fun _ => hlayer, by rintro ⟨⟩, hcall,
      hr.dispatch, hr.entry⟩
  · rename_i hlayer
    exact ⟨hr.caller, hr.callerActive, hr.target, hr.targetActive, by rintro ⟨⟩, fun _ => hlayer, hcall,
      hr.dispatch, hr.entry⟩

theorem Resolved.elevator {kind : GateKind} (hr : Resolved k kind m r) (hkind : kind ≠ .elevator)
    (hcrit : CarriesCritical k m.capabilityHandle) : Resolved k .elevator m r := by
  have hcall : k.capabilityCheck m.capabilityHandle m.targetServiceId m.operationId capCall m.resourceId = true := by
    have hcap := hr.capability
    cases kind with
    | elevator => exact absurd rfl hkind
    | _ => exact hcap
  exact ⟨hr.caller, hr.callerActive, hr.target, hr.targetActive, by rintro ⟨⟩, by rintro ⟨⟩,
    capabilityCheck_critical.2 ⟨hcall, hcrit⟩, hr.dispatch, hr.entry⟩

/-- The two ordinary paths resolve a request to the same services, so they differ by the layers. -/
theorem Resolved.not_both {r' : CallResolution} (hs : Resolved k .sameLayer m r) (hc : Resolved k .crossLayer m r') :
    False := by
  have hcaller : r.caller = r'.caller := Option.some.inj (hs.caller.symm.trans hc.caller)
  have htarget : r.target = r'.target := Option.some.inj (hs.target.symm.trans hc.target)
  apply hc.crossLayer rfl
  rw [← hcaller, ← htarget]
  exact hs.sameLayer rfl

end

/-- What the three paths answer to the request `m` in `k`. -/
structure Partitioned (k : Kernel) (m : CallMessage) : Prop where
  /-- The two ordinary paths never both accept. -/
  exclusive : ∀ r r', sameLayerValidate k m.targetServiceId m.operationId m.resourceId m.capabilityHandle = .ok r →
    crossLayerValidate k (some m) ≠ .ok r'
  /-- What the elevator accepts exactly one of them accepts, with the same resolution. -/
  elevator : ∀ r, elevatorPolicy k (some m) = .ok r →
    (sameLayerValidate k m.targetServiceId m.operationId m.resourceId m.capabilityHandle = .ok r ∧
      ∀ r', crossLayerValidate k (some m) ≠ .ok r') ∨
    (crossLayerValidate k (some m) = .ok r ∧
      ∀ r', sameLayerValidate k m.targetServiceId m.operationId m.resourceId m.capabilityHandle ≠ .ok r')
  /-- What one of them accepts with a capability that carries CRITICAL the elevator accepts. -/
  critical : ∀ r, sameLayerValidate k m.targetServiceId m.operationId m.resourceId m.capabilityHandle = .ok r ∨
      crossLayerValidate k (some m) = .ok r →
    CarriesCritical k m.capabilityHandle → elevatorPolicy k (some m) = .ok r

theorem partitioned_of_wellFormed {k : Kernel} (hw : k.services.WellFormed) (m : CallMessage) : Partitioned k m := by
  have hexcl : ∀ r r',
      sameLayerValidate k m.targetServiceId m.operationId m.resourceId m.capabilityHandle = .ok r →
      crossLayerValidate k (some m) ≠ .ok r' := fun r r' hs hc =>
    ((sameLayerValidate_iff hw).1 hs).1.not_both (crossLayerValidate_iff.1 hc).1
  refine ⟨hexcl, fun r he => ?_, fun r hr hcrit => ?_⟩
  · obtain ⟨hr, h0⟩ := elevatorPolicy_iff.1 he
    have hpath := hr.of_elevator
    split at hpath
    · have hsame := (sameLayerValidate_iff hw).2 ⟨hpath, h0⟩
      exact Or.inl ⟨hsame, fun r' => hexcl r r' hsame⟩
    · have hcross := crossLayerValidate_iff.2 ⟨hpath, h0⟩
      exact Or.inr ⟨hcross, fun r' hs => hexcl r' r hs hcross⟩
  · rw [elevatorPolicy_iff]
    rcases hr with hs | hc
    · obtain ⟨hr, h0⟩ := (sameLayerValidate_iff hw).1 hs
      exact ⟨hr.elevator (by decide) hcrit, h0⟩
    · obtain ⟨hr, h0⟩ := crossLayerValidate_iff.1 hc
      exact ⟨hr.elevator (by decide) hcrit, h0⟩

/-- **The call paths partition the requests**: in every state the kernel reaches, for every
current service and every request, the same-layer and cross-layer validators exclude each
other, and the elevator policy accepts exactly the CRITICAL ones among what either accepts,
with the resolution of that path. -/
theorem call_paths_partition {P : Type} (π : Protection P) (p : P) {h : List (GateState P × KernelEvent)}
    {s : GateState P} (r : Run anyStep (gateStep π) { kernelBoot with protection := p, calls := [] } h s)
    (current : ServiceId) (m : CallMessage) : Partitioned ⟨s.services, s.caps, current⟩ m :=
  partitioned_of_wellFormed (k := ⟨s.services, s.caps, current⟩) (services_wellFormed r) m

/-- The set-up of `elevator_unit.c`: a caller on L3, a target on L1, a capability with CALL and
CRITICAL. -/
def crossLayerRun : List (GateState DomainId × KernelEvent) × GateState DomainId :=
  traceFrom (gateStep hostProtection) [] { kernelBoot with protection := 0, calls := [] }
    [.capabilityInit, .registryInit, .registryRegister ⟨10, 3, 100, 1⟩, .registryRegister ⟨20, 1, 200, 1⟩,
      .dispatchRegister 20 4 0x1000, .capabilityCreate 10 20 4 33 300]

theorem call_paths_partition_elevator :
    elevatorPolicy ⟨crossLayerRun.2.services, crossLayerRun.2.caps, 10⟩ (some ⟨20, 4, 300, 0x00010001⟩) =
      .ok ⟨⟨10, 3, 100, 1⟩, ⟨20, 1, 200, 1⟩, ⟨0x1000, true⟩⟩ := by
  have r : Run anyStep (gateStep hostProtection) { kernelBoot with protection := 0, calls := [] }
      crossLayerRun.1 crossLayerRun.2 := Run.start.trace (admits_anyStep _ _)
  refine (call_paths_partition hostProtection 0 r 10 ⟨20, 4, 300, 0x00010001⟩).critical _ (Or.inr rfl) ?_
  exact ⟨⟨1, true, 10, 20, 4, 300, 33⟩, by decide +kernel, by decide⟩

end Lettuce
