import LettuceKernel.CapabilityHistory
/-!
# Authority ends with revocation, not with unregistration

A capability names its owner and target by service id, and service ids carry no generation.
`lettuce_service_registry_unregister` clears the descriptor and the operations of a service
(kernel.c:48) and never looks at the capability table, whose entries are released by
`lettuce_capability_revoke` alone. So what a service held, and what was granted on it, is there
for the next service registered under its id: a call needs both ids to be registered at the
time of the call, not all the time since the grant.

Whoever revokes before unregistering (`RevokesFirst`) gets the stronger law.
-/

namespace Lettuce

open Runs

variable {P : Type}

/-- `lettuce_service_registry_unregister(id)` returned true. -/
def Unregisters (id : ServiceId) (s : GateState P) (e : KernelEvent) : Prop :=
  e = .registryUnregister id ∧ (registryUnregister s.services id).2 = true

/-- The `create` that returned `handle` for these fields came after the last time either of the
two services was unregistered. -/
def GrantedSinceRegistered (h : GateHistory P) (handle : CapabilityHandle) (owner target : ServiceId)
    (op : OperationId) (resource : ResourceId) : Prop :=
  ∃ permissions, Since (Grants handle owner target op permissions resource)
    (fun s e => Unregisters owner s e ∨ Unregisters target s e) h

/-- A service is unregistered only once no active capability names it. -/
def RevokesFirst (s : GateState P) (e : KernelEvent) : Prop :=
  ∀ id, e = .registryUnregister id → ∀ slot : BitVec 16, slot.toNat < capabilityTableSize →
    (s.caps.entries slot.toNat).active = true →
    (s.caps.entries slot.toNat).owner ≠ id ∧ (s.caps.entries slot.toNat).target ≠ id

/-- No active capability has seen its owner or target unregistered. -/
def GrantedLasting (h : GateHistory P) (c : CapabilityTable) : Prop :=
  ∀ slot : BitVec 16, slot.toNat < capabilityTableSize → ∀ x, c.entries slot.toNat = x → x.active = true →
    Since (Grants (makeHandle slot x.generation) x.owner x.target x.operation x.permissions x.resource)
      (fun s e => Unregisters x.owner s e ∨ Unregisters x.target s e) h

theorem GrantedLasting.step {h : GateHistory P} {s : GateState P} {e : KernelEvent} (hl : GrantedLasting h s.caps)
    (he : RevokesFirst s e) : GrantedLasting ((s, e) :: h) (capsStep s.caps e) := by
  intro slot hs x hx hact
  rcases granted_step hs hx hact with hgrant | ⟨hold, -⟩
  · exact since_now hgrant
  · refine since_later ?_ (hl slot hs x hold hact)
    rintro (⟨hun, -⟩ | ⟨hun, -⟩)
    · exact (he _ hun slot hs (by rw [hold]; exact hact)).1 (by rw [hold])
    · exact (he _ hun slot hs (by rw [hold]; exact hact)).2 (by rw [hold])

theorem GrantedLasting.run {π : Protection P} {p : P} {h : GateHistory P} {s : GateState P}
    (r : Run anyStep (gateStep π) { kernelBoot with protection := p, calls := [] } h s) :
    (∀ q ∈ h, RevokesFirst q.1 q.2) → GrantedLasting h s.caps := by
  refine r.historyInvariant (I := fun h s => (∀ q ∈ h, RevokesFirst q.1 q.2) → GrantedLasting h s.caps) ?_ ?_
  · intro _ slot _ x hx hact
    subst hx
    cases hact
  · intro h s e _ hl hall
    rw [(gateStep_tables π s e).2]
    exact (hl fun q hq => hall q (List.mem_cons_of_mem _ hq)).step (hall _ (List.mem_cons_self ..))

/-- The capability a resolved call presents. -/
theorem GrantedLasting.resolved {h : GateHistory P} {s : GateState P} (hl : GrantedLasting h s.caps)
    {kind : GateKind} {m : CallMessage} {r : CallResolution} (hr : Resolved s.toKernel kind m r) :
    GrantedSinceRegistered h m.capabilityHandle s.currentServiceId m.targetServiceId m.operationId m.resourceId := by
  obtain ⟨x, hlive, -, -, ho, ht, hop, hres, -⟩ := capabilityCheck_eq_true.1 hr.capability
  obtain ⟨slot, hs, hx, hact, hh⟩ := liveEntry_eq_some.1 hlive
  have hsince := hl slot hs x hx hact
  rw [← hh, ho, ht, hop, hres] at hsince
  exact ⟨x.permissions, hsince⟩

/-- **Authority ends with revocation**: in every run, registering and unregistering services
leaves the capability table as it is, and a capability is in the table exactly if it was granted
and neither revoked nor the table initialised since, whatever else was called; whenever a gate
invokes an entry, caller and target were
registered and the entry stored after the last time their ids were unregistered, and the
presented handle was granted to this caller on this target and not revoked since; and if every
service is unregistered only once no active capability names it, neither of the two was
unregistered between that grant and the call. -/
theorem authority_ends_with_revocation (π : Protection P) (p : P) {h : GateHistory P} {s : GateState P}
    (r : Run anyStep (gateStep π) { kernelBoot with protection := p, calls := [] } h s) :
    (∀ id, (gateStep π s (.registryUnregister id)).caps = s.caps) ∧
    (∀ d, (gateStep π s (.registryRegister d)).caps = s.caps) ∧
    (∀ x k, capabilityMap s.caps x = some k ↔ Since (GrantsCapability x k) (Withdraws x) h) ∧
    ∀ call res, gateResolve s.toKernel call = .ok res → ∃ m, call.message = some m ∧
      Authorized h s.toKernel call.kind m res.entry.entry ∧
      ((∀ q ∈ h, RevokesFirst q.1 q.2) →
        GrantedSinceRegistered h m.capabilityHandle s.currentServiceId m.targetServiceId m.operationId
          m.resourceId) := by
  refine ⟨fun _ => rfl, fun _ => rfl, (CapabilitiesExact.run r).map, fun call res hres => ?_⟩
  obtain ⟨m, hm, hr⟩ := gateResolve_ok hres
  exact ⟨m, hm, (Backed.run r).authorized hr, fun hall => (GrantedLasting.run r hall).resolved hr⟩

/-- Service 10 may call service 20; then 20 is unregistered and its id given to another service,
in another domain and with an entry of its own. -/
def recycledTarget : List KernelEvent :=
  sameLayerSetUp ++ [.registryUnregister 20, .registryRegister ⟨20, 1, 500, 1⟩, .dispatchRegister 20 1 0x5000]

def recycledRun : GateHistory DomainId × GateState DomainId :=
  traceFrom (gateStep hostProtection) [] { kernelBoot with protection := 0, calls := [] } recycledTarget

theorem recycledRun_run : Run anyStep (gateStep hostProtection) { kernelBoot with protection := 0, calls := [] }
    recycledRun.1 recycledRun.2 := Run.start.trace (admits_anyStep _ _)

theorem recycledRun_resolve : gateResolve recycledRun.2.toKernel (.sameLayer ⟨20, 1, 30, 0x00010001⟩) =
    .ok ⟨⟨10, 1, 100, 1⟩, ⟨20, 1, 500, 1⟩, ⟨0x5000, true⟩⟩ := by rfl

/-- The same with the capability revoked before the service goes, and granted anew on its
successor. -/
def renewedTarget : List KernelEvent :=
  sameLayerSetUp ++ [.capabilityRevoke 0x00010001, .registryUnregister 20, .registryRegister ⟨20, 1, 500, 1⟩,
    .dispatchRegister 20 1 0x5000, .capabilityCreate 10 20 1 1 30]

def renewedRun : GateHistory DomainId × GateState DomainId :=
  traceFrom (gateStep hostProtection) [] { kernelBoot with protection := 0, calls := [] } renewedTarget

/-- After the revocation no slot is active, so the unregistration is an admitted one. -/
theorem renewedTarget_revokesFirst :
    Admits RevokesFirst (gateStep hostProtection) { kernelBoot with protection := 0, calls := [] } renewedTarget := by
  refine ⟨?_, ?_, ?_, ?_, ?_, ?_, ?_, ?_, ?_, ?_, ?_, ?_, trivial⟩
  case refine_9 =>
    intro id _ slot _ hact
    have hnone : ∀ i, ((capsStep (capsStep (capsStep capabilityBoot .capabilityInit)
        (.capabilityCreate 10 20 1 1 30)) (.capabilityRevoke 0x00010001)).entries i).active = false := by
      intro i
      cases i with
      | zero => rfl
      | succ i => rfl
    exact absurd ((hnone slot.toNat).symm.trans hact) Bool.false_ne_true
  all_goals
    intro id he
    cases he

/-- The new service 20 is called under the new grant, and neither service went in between. -/
theorem authority_ends_with_revocation_renewed : GrantedSinceRegistered renewedRun.1 0x00020001 10 20 1 30 := by
  have r : Run anyStep (gateStep hostProtection) { kernelBoot with protection := 0, calls := [] }
      renewedRun.1 renewedRun.2 := Run.start.trace (admits_anyStep _ _)
  have hres : gateResolve renewedRun.2.toKernel (.sameLayer ⟨20, 1, 30, 0x00020001⟩) =
      .ok ⟨⟨10, 1, 100, 1⟩, ⟨20, 1, 500, 1⟩, ⟨0x5000, true⟩⟩ := by rfl
  obtain ⟨m, hm, -, hgranted⟩ := (authority_ends_with_revocation hostProtection 0 r).2.2.2 _ _ hres
  cases hm
  exact hgranted (renewedTarget_revokesFirst.history (by simp))

/-- The new service 20 is called under the capability granted on its predecessor. -/
theorem recycled_id_inherits_authority :
    ¬ ∀ (h : GateHistory DomainId) (s : GateState DomainId),
      Run anyStep (gateStep hostProtection) { kernelBoot with protection := 0, calls := [] } h s →
      ∀ call res m, gateResolve s.toKernel call = .ok res → call.message = some m →
        GrantedSinceRegistered h m.capabilityHandle s.currentServiceId m.targetServiceId m.operationId
          m.resourceId := by
  intro hall
  obtain ⟨permissions, hsince⟩ := hall _ _ recycledRun_run _ _ _ recycledRun_resolve rfl
  -- from the call back to the unregistration there is no grant
  rcases hsince with hgrant | ⟨-, hgrant | ⟨-, hgrant | ⟨hnot, -⟩⟩⟩
  · cases hgrant.1
  · cases hgrant.1
  · cases hgrant.1
  · exact hnot (Or.inr ⟨rfl, by rfl⟩)

end Lettuce
