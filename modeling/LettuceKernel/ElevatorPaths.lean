import LettuceKernel.Cpu
/-!
# The two elevator transitions (cpu.c:408-434, Test 23 of main.c)

An authorised elevator call installs its target either by `elevator.S` or by the C code the
other two calls use. The C path goes through `lettuce_mmu_enter`, which leaves the address
space alone for a domain it has no tables for; the assembly path writes the current domain
and TTBR0 from the descriptor without that check. `elevator_paths_agree_iff` says exactly for
which requests the two leave the same state; the registry accepts any domain id.
-/

namespace Lettuce

open Runs

/-- The state two ways of handling a call are compared on. -/
structure SameOutcome (a b : Machine) : Prop where
  serviceId : a.currentServiceId = b.currentServiceId
  domain : a.protection.currentDomain = b.protection.currentDomain
  ttbr0 : a.protection.ttbr0 = b.protection.ttbr0
  stack : a.stack = b.stack
  exec : a.exec = b.exec

section
variable {arch : Arch} {m : Machine} {frame : TrapFrame}

theorem svcResolve_elevator (k : Kernel) (msg : CallMessage) :
    svcResolve k .elevator msg = elevatorPolicy k (some msg) := by
  simp only [svcResolve, svcValidate]
  split
  · rename_i status h
    exact h.symm
  · rename_i r h
    rw [if_neg (elevatorPolicy_ok h).entry, h]

/-- What the reference path and the fast path make of the MMU. -/
theorem callMmu_reference (d : DomainId) :
    arch.callMmu { m with elevatorUseAsm := false } .elevator d = arch.mmuEnter d m.protection := by
  simp [Arch.callMmu]

theorem callMmu_asm (d : DomainId) :
    arch.callMmu { m with elevatorUseAsm := true } .elevator d =
      { currentDomain := d, ttbr0 := arch.domainTtbr0Val d } := by
  simp [Arch.callMmu]

/-- The two switches agree exactly on known domains and on the current one. -/
theorem mmuEnter_eq_asm_iff (hm : m.protection.Consistent arch) (d : DomainId) :
    { currentDomain := d, ttbr0 := arch.domainTtbr0Val d } = arch.mmuEnter d m.protection ↔
      KnownDomain d ∨ d = m.protection.currentDomain := by
  by_cases hk : KnownDomain d
  · simp [mmuEnter_known hm hk, hk]
  · rw [mmuEnter_unknown hk]
    constructor
    · intro h
      exact Or.inr (congrArg Mmu.currentDomain h)
    · rintro (h | rfl)
      · exact absurd h hk
      · rw [← show m.protection.ttbr0 = _ from hm]

/-- Both paths have the same effect apart from the MMU. -/
theorem sameOutcome_of_entered {r : CallResolution} (hr : svcResolve m.toKernel .elevator (svcMessage frame) = .ok r)
    (hd : m.stack.length < contextMax) :
    SameOutcome (arch.svcCall { m with elevatorUseAsm := true } .elevator frame)
      (arch.svcCall { m with elevatorUseAsm := false } .elevator frame) ↔
      { currentDomain := r.target.domain, ttbr0 := arch.domainTtbr0Val r.target.domain } =
        arch.mmuEnter r.target.domain m.protection := by
  rw [svcCall_entered arch (m := { m with elevatorUseAsm := true }) hr hd,
    svcCall_entered arch (m := { m with elevatorUseAsm := false }) hr hd, callMmu_asm, callMmu_reference]
  constructor
  · intro h
    exact Mmu.ext h.domain h.ttbr0
  · intro h
    exact ⟨rfl, congrArg Mmu.currentDomain h, congrArg Mmu.ttbr0 h, rfl, rfl⟩

/-- A call that enters no target does not look at the mode. -/
theorem sameOutcome_of_refused (h : ∀ r, svcResolve m.toKernel .elevator (svcMessage frame) = .ok r →
    contextMax ≤ m.stack.length) :
    SameOutcome (arch.svcCall { m with elevatorUseAsm := true } .elevator frame)
      (arch.svcCall { m with elevatorUseAsm := false } .elevator frame) := by
  cases hr : svcResolve m.toKernel .elevator (svcMessage frame) with
  | error status =>
    rw [svcCall_error arch (m := { m with elevatorUseAsm := true }) hr,
      svcCall_error arch (m := { m with elevatorUseAsm := false }) hr]
    exact ⟨rfl, rfl, rfl, rfl, rfl⟩
  | ok r =>
    rw [svcCall_overflow arch (m := { m with elevatorUseAsm := true }) hr (h r hr),
      svcCall_overflow arch (m := { m with elevatorUseAsm := false }) hr (h r hr)]
    exact ⟨rfl, rfl, rfl, rfl, rfl⟩

end

/-- **Fast path and reference path** leave the same state, in every reachable state and for every
request, exactly when the policy refuses the request, the context stack is full, or the
target's domain is one the MMU has tables for or the current one. -/
theorem elevator_paths_agree_iff (arch : Arch) {h : MachineHistory} {m : Machine}
    (r : Run anyStep arch.machineStep arch.machineBoot h m) (frame : TrapFrame) :
    SameOutcome (arch.svcCall { m with elevatorUseAsm := true } .elevator frame)
        (arch.svcCall { m with elevatorUseAsm := false } .elevator frame) ↔
      ∀ res, elevatorPolicy m.toKernel (some (svcMessage frame)) = .ok res → m.stack.length < contextMax →
        KnownDomain res.target.domain ∨ res.target.domain = m.protection.currentDomain := by
  have hm : m.protection.Consistent arch := machineRun_consistent r mmuInit_consistent
  simp only [← svcResolve_elevator]
  constructor
  · intro hsame res hres hd
    exact (mmuEnter_eq_asm_iff hm _).1 ((sameOutcome_of_entered hres hd).1 hsame)
  · intro hcond
    by_cases hent : ∃ res, svcResolve m.toKernel .elevator (svcMessage frame) = .ok res ∧ m.stack.length < contextMax
    · obtain ⟨res, hres, hd⟩ := hent
      exact (sameOutcome_of_entered hres hd).2 ((mmuEnter_eq_asm_iff hm _).2 (hcond res hres hd))
    · exact sameOutcome_of_refused fun res hres => Nat.not_lt.1 fun hd => hent ⟨res, hres, hd⟩

/-- The camera about to call a sensor registered in the given domain. -/
def elevatorRun (sensorDomain : DomainId) : MachineHistory × Machine :=
  traceFrom boardArch.machineStep [] boardArch.machineBoot
    (boardSetUp sensorDomain ++ [.runEl0Service 0x41050300 domainA 10 callSensor])

/-- The pair of runs Test 23 makes. -/
theorem elevator_paths_agree_iff_sensor :
    (elevatorPolicy (elevatorRun domainC).2.toKernel (some (svcMessage callSensor))).isOk ∧
      SameOutcome (boardArch.svcCall { (elevatorRun domainC).2 with elevatorUseAsm := true } .elevator callSensor)
        (boardArch.svcCall { (elevatorRun domainC).2 with elevatorUseAsm := false } .elevator callSensor) := by
  have r : Run anyStep boardArch.machineStep boardArch.machineBoot (elevatorRun domainC).1 (elevatorRun domainC).2 :=
    Run.start.trace (admits_anyStep _ _)
  have hres : elevatorPolicy (elevatorRun domainC).2.toKernel (some (svcMessage callSensor)) =
      .ok ⟨⟨10, 3, domainA, 1⟩, ⟨40, 2, domainC, 1⟩, ⟨0x41050100, true⟩⟩ := by rfl
  refine ⟨by rw [hres]; rfl, (elevator_paths_agree_iff boardArch r callSensor).2 fun res h _ => ?_⟩
  rw [hres] at h
  cases h
  decide

/-- A sensor registered in domain 400: the fast path leaves that domain and an empty TTBR0, the
reference path stays in the camera's address space. -/
theorem elevator_paths_differ :
    ¬ ∀ (arch : Arch) h m, Run anyStep arch.machineStep arch.machineBoot h m → ∀ frame,
      SameOutcome (arch.svcCall { m with elevatorUseAsm := true } .elevator frame)
        (arch.svcCall { m with elevatorUseAsm := false } .elevator frame) := by
  intro hall
  have hsame := hall boardArch _ _ (Run.start.trace (admits_anyStep _ _) :
    Run anyStep boardArch.machineStep boardArch.machineBoot (elevatorRun 400).1 (elevatorRun 400).2) callSensor
  exact absurd hsame.domain (by decide +kernel)

end Lettuce
