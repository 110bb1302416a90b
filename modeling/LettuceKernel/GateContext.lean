import LettuceKernel.Provenance
/-!
# The identity and the domain an entry runs in (hosted build)

Every gate brackets the entry it invokes with `lettuce_context_enter` and
`lettuce_context_leave` (context.c:37, :49). The service id is always the target's. The
domain is the target's registered one with one exception: `lettuce_protection_enter` does not
enter domain 0 (protection.c:42), which `lettuce_service_registry_register` accepts like any
other, so a service registered there runs in the domain of its caller.

A tree of nested calls is a run of `gateStep`: what an entry does lies between the `gate` step
that invoked it and the `entryReturn` at its own depth.
-/

namespace Lettuce

open Runs

/-- No entry returns at depth `d`: the call that brought the pending calls to `d` still runs. -/
def StillRuns {P : Type} (d : Nat) (s : GateState P) (e : KernelEvent) : Prop :=
  e = .entryReturn → d < s.calls.length

/-- The hosted kernel at power-on, with `d` as the current domain. -/
def hostBoot (d : DomainId) : GateState DomainId := { kernelBoot with protection := d, calls := [] }

section
variable {P : Type} {π : Protection P} {s : GateState P}

/-- A step leaves the pending calls alone, pushes the context it interrupts, or is a return. -/
theorem gateStep_calls (π : Protection P) (s : GateState P) (e : KernelEvent) :
    (gateStep π s e).calls = s.calls ∨ (∃ c, (gateStep π s e).calls = c :: s.calls) ∨
      (e = .entryReturn ∧ ∃ c, s.calls = c :: (gateStep π s e).calls) := by
  cases e with
  | gate call =>
    simp only [gateStep]
    split
    · exact Or.inl rfl
    · exact Or.inr (Or.inl ⟨_, rfl⟩)
  | entryReturn =>
    simp only [gateStep]
    split
    · exact Or.inl rfl
    · rename_i previous calls hcalls
      exact Or.inr (Or.inr ⟨trivial, previous, hcalls⟩)
  | _ => exact Or.inl rfl

/-- The contexts saved up to depth `d` stay while no entry returns at that depth. -/
theorem StillRuns.suffix {saved : List ExecutionContext} {e : KernelEvent} (he : StillRuns saved.length s e)
    (hs : saved <:+ s.calls) : saved <:+ (gateStep π s e).calls := by
  rcases gateStep_calls π s e with heq | ⟨c, heq⟩ | ⟨hret, c, heq⟩
  · rw [heq]; exact hs
  · rw [heq]; exact hs.trans (List.suffix_cons _ _)
  · have hdeep := he hret
    rw [heq] at hs hdeep
    rcases List.suffix_cons_iff.1 hs with hall | hrest
    · rw [← hall] at hdeep
      exact absurd hdeep (Nat.lt_irrefl _)
    · exact hrest

/-- When the run is back at the depth of a call, the context that call saved is on top. -/
theorem calls_of_stillRuns {saved : List ExecutionContext} {s₀ : GateState P} {h : GateHistory P}
    (r : Run (StillRuns saved.length) (gateStep π) s₀ h s) (h0 : s₀.calls = saved)
    (hd : s.calls.length = saved.length) : s.calls = saved := by
  have hs : saved <:+ s.calls := r.invariant (I := fun s => saved <:+ s.calls) (h0 ▸ List.suffix_refl _)
    fun _ _ he hs => he.suffix hs
  exact (hs.eq_of_length hd.symm).symm

end

/-- What a gate call made in `s`, after the history `h`, does to the current service and domain. -/
structure CallContext (h : GateHistory DomainId) (s : GateState DomainId) (call : GateCall) : Prop where
  /-- A refused call returns at once. -/
  refused : ∀ status, gateResolve s.toKernel call = .error status → gateStep hostProtection s (.gate call) = s
  /-- The entry is invoked as its target, in the domain the target was registered with unless
  that is 0, and then in the domain of the caller. -/
  entered : ∀ res, gateResolve s.toKernel call = .ok res → ∃ m, call.message = some m ∧
    Since (Registers res.target) (Deregisters m.targetServiceId) h ∧
    (gateStep hostProtection s (.gate call)).currentServiceId = m.targetServiceId ∧
    (gateStep hostProtection s (.gate call)).protection =
      if res.target.domain ≠ 0 then res.target.domain else s.protection
  /-- Whatever runs until an entry returns at the depth of this call, that return restores both. -/
  returned : ∀ res, gateResolve s.toKernel call = .ok res → ∀ h' s',
    Run (StillRuns (s.calls.length + 1)) (gateStep hostProtection) (gateStep hostProtection s (.gate call)) h' s' →
    s'.calls.length = s.calls.length + 1 →
    (gateStep hostProtection s' .entryReturn).currentServiceId = s.currentServiceId ∧
      (gateStep hostProtection s' .entryReturn).protection = s.protection ∧
      (gateStep hostProtection s' .entryReturn).calls = s.calls

section
variable {s : GateState DomainId} {call : GateCall} {res : CallResolution}

theorem gateStep_gate_ok (hres : gateResolve s.toKernel call = .ok res) :
    gateStep hostProtection s (.gate call) = contextEnter hostProtection s res.target.id res.target.domain := by
  simp only [gateStep, hres]

theorem gateStep_gate_returned (hres : gateResolve s.toKernel call = .ok res) {h' : GateHistory DomainId}
    {s' : GateState DomainId}
    (r : Run (StillRuns (s.calls.length + 1)) (gateStep hostProtection) (gateStep hostProtection s (.gate call)) h' s')
    (hd : s'.calls.length = s.calls.length + 1) :
    gateStep hostProtection s' .entryReturn =
      contextLeave hostProtection s' { serviceId := s.currentServiceId, domainId := s.protection } s.calls := by
  have hcalls : s'.calls = { serviceId := s.currentServiceId, domainId := s.protection } :: s.calls :=
    calls_of_stillRuns r (by rw [gateStep_gate_ok hres]; rfl) hd
  simp only [gateStep, hcalls]

end

/-- **Entries run in their own identity, and in their own domain unless it is 0**: in every run
of the hosted kernel, whatever is registered and however calls nest, a gate that invokes an
entry does so with the target as the current service and its registered domain as the current
one, domain 0 standing for the caller's; and the matching return restores what was current
before the call. -/
theorem gate_call_context (d : DomainId) {h : GateHistory DomainId} {s : GateState DomainId}
    (r : Run anyStep (gateStep hostProtection) (hostBoot d) h s) (call : GateCall) : CallContext h s call where
  refused := by
    intro status herr
    simp only [gateStep, herr]
  entered := by
    intro res hres
    obtain ⟨m, hm, hr⟩ := gateResolve_ok hres
    refine ⟨m, hm, (Backed.run (p := d) r).registered _ _ hr.target, ?_, ?_⟩
    · rw [gateStep_gate_ok hres]
      exact (registryLookup_eq_some.1 hr.target).2.2.1
    · rw [gateStep_gate_ok hres]
      rfl
  returned := by
    intro res hres h' s' r' hd
    rw [gateStep_gate_returned hres r' hd]
    exact ⟨rfl, rfl, rfl⟩

/-- Three services on one layer: 30 may call 10, 10 may call 20, and 20 is registered in
domain 0. Service 30 has called 10, whose entry is running. -/
def domainZeroRun : GateHistory DomainId × GateState DomainId :=
  traceFrom (gateStep hostProtection) [] (hostBoot 0)
    [.capabilityInit, .registryInit, .registryRegister ⟨10, 3, 100, 1⟩, .registryRegister ⟨20, 3, 0, 1⟩,
      .registryRegister ⟨30, 3, 300, 1⟩, .dispatchRegister 10 1 0x1000, .dispatchRegister 20 2 0x2000,
      .capabilityCreate 30 10 1 1 200, .capabilityCreate 10 20 2 1 300, .setCurrentServiceId 30,
      .gate (.sameLayer ⟨10, 1, 200, 0x00010001⟩)]

/-- The call from 10 to 20. -/
def callDomainZero : GateCall := .sameLayer ⟨20, 2, 300, 0x00010002⟩

theorem domainZeroRun_run :
    Run anyStep (gateStep hostProtection) (hostBoot 0) domainZeroRun.1 domainZeroRun.2 :=
  Run.start.trace (admits_anyStep _ _)

theorem domainZeroRun_resolve : gateResolve domainZeroRun.2.toKernel callDomainZero =
    .ok ⟨⟨10, 3, 100, 1⟩, ⟨20, 3, 0, 1⟩, ⟨0x2000, true⟩⟩ := by rfl

/-- Service 20 runs in the domain of service 10, and 10 gets its own identity and domain back. -/
theorem gate_call_context_domain_zero :
    (gateStep hostProtection domainZeroRun.2 (.gate callDomainZero)).protection = 100 ∧
      (gateStep hostProtection (gateStep hostProtection domainZeroRun.2 (.gate callDomainZero))
        .entryReturn).currentServiceId = 10 := by
  have hcall := gate_call_context 0 domainZeroRun_run callDomainZero
  obtain ⟨m, -, -, -, hdomain⟩ := hcall.entered _ domainZeroRun_resolve
  obtain ⟨hservice, -, -⟩ := hcall.returned _ domainZeroRun_resolve [] _ .start rfl
  exact ⟨hdomain, hservice⟩

/-- There the entry of service 20, registered with domain 0, runs in domain 100. -/
theorem entry_runs_outside_registered_domain :
    ¬ ∀ (h : GateHistory DomainId) (s : GateState DomainId),
      Run anyStep (gateStep hostProtection) (hostBoot 0) h s → ∀ call res, gateResolve s.toKernel call = .ok res →
        (gateStep hostProtection s (.gate call)).currentServiceId = res.target.id ∧
          (gateStep hostProtection s (.gate call)).protection = res.target.domain := by
  intro hall
  have hdomain := (hall _ _ domainZeroRun_run _ _ domainZeroRun_resolve).2
  rw [gateStep_gate_ok domainZeroRun_resolve] at hdomain
  exact absurd hdomain (by decide +kernel)

end Lettuce
