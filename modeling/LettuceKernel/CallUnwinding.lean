import LettuceKernel.Cpu
/-!
# Nested calls unwind exactly

Runs of the machine without preemption: the kernel prepares services in the three domains the
MMU knows, enters EL0 any number of times, and EL0 makes calls and returns in any order, with
any registers and in either elevator mode. `Settled` is what every such state satisfies;
`Inside` follows one open call: its frame stays where it was pushed until a return is made at
its own depth, which is the matching one.
-/

namespace Lettuce

open Runs

/-- The steps of a run without preemption. A timer interrupt may come, but not to a scheduler
that would act on it. -/
def Unpreempted (m : Machine) : MachineEvent → Prop
  | .kernel (.registryRegister d) => KnownDomain d.domain
  | .trap .svcReturn _ => True
  | .trap (.svcCall _) _ => True
  | .trap .timer _ => m.sched.active = false ∨ m.preemptDisableCount ≠ 0
  | .trap _ _ => False
  | _ => True

/-- Every registered service lives in a domain the MMU has tables for. -/
def KnownServices (t : ServiceTable) : Prop :=
  ∀ i, (t i).descriptor.id ≠ 0 → KnownDomain (t i).descriptor.domain

structure Settled (arch : Arch) (m : Machine) : Prop where
  depth : m.stack.length ≤ contextMax
  consistent : m.protection.Consistent arch
  domain : KnownDomain m.protection.currentDomain
  services : KnownServices m.services

/-! ## The services stay in known domains -/

section
variable {t : ServiceTable}

theorem KnownServices.update (hk : KnownServices t) {i : Nat} {e : RegistryEntry}
    (he : e.descriptor.id ≠ 0 → KnownDomain e.descriptor.domain) : KnownServices (Function.update t i e) := by
  intro j hj
  by_cases hij : j = i
  · subst hij
    rw [Function.update_self] at hj ⊢
    exact he hj
  · rw [Function.update_of_ne hij] at hj ⊢
    exact hk j hj

theorem KnownServices.setOperation (hk : KnownServices t) (id : ServiceId) (op : OperationId) (e : DispatchEntry) :
    KnownServices (setOperation t id op e) := by
  intro j hj
  rw [setOperation_descriptor] at hj ⊢
  exact hk j hj

theorem KnownServices.step (hk : KnownServices t) {e : KernelEvent}
    (he : ∀ d, e = .registryRegister d → KnownDomain d.domain) : KnownServices (servicesStep t e) := by
  cases e with
  | registryInit => exact fun i hi => absurd rfl hi
  | registryRegister d =>
    simp only [servicesStep]
    rcases registryRegister_cases t d with heq | ⟨-, -, heq⟩
    · rw [heq]; exact hk
    · rw [heq]; exact hk.update fun _ => he d rfl
  | registryUnregister id =>
    simp only [servicesStep]
    rcases registryUnregister_cases t id with ⟨heq, -⟩ | ⟨-, -, heq⟩
    · rw [heq]; exact hk
    · rw [heq]; exact hk.update fun h0 => absurd rfl h0
  | dispatchRegister id op entry =>
    simp only [servicesStep]
    rcases dispatchRegister_cases t id op entry with heq | ⟨-, -, -, -, heq⟩
    · rw [heq]; exact hk
    · rw [heq]; exact hk.setOperation id op _
  | dispatchUnregister id op =>
    simp only [servicesStep]
    rcases dispatchUnregister_cases t id op with ⟨heq, -⟩ | ⟨-, -, heq⟩
    · rw [heq]; exact hk
    · rw [heq]; exact hk.setOperation id op _
  | _ => exact hk

theorem KnownServices.lookup (hk : KnownServices t) {id : ServiceId} {d : ServiceDescriptor}
    (h : registryLookup t id = some d) : KnownDomain d.domain := by
  have hd := hk id.toNat (registryLookup_descriptor_ne h)
  rwa [(registryLookup_eq_some.1 h).2.2.2] at hd

end

/-! ## One step -/

section
variable {arch : Arch} {m : Machine}

theorem Settled.target (hm : Settled arch m) {kind : GateKind} {msg : CallMessage} {r : CallResolution}
    (hr : svcResolve m.toKernel kind msg = .ok r) : KnownDomain r.target.domain :=
  hm.services.lookup (svcResolve_ok hr).target

/-- Both mechanisms put a call into the target's domain. -/
theorem Settled.callMmu (hm : Settled arch m) (kind : GateKind) {d : DomainId} (hd : KnownDomain d) :
    arch.callMmu m kind d = { currentDomain := d, ttbr0 := arch.domainTtbr0Val d } := by
  unfold Arch.callMmu
  split
  · rfl
  · exact mmuEnter_known hm.consistent hd

theorem Settled.kernelStep (hm : Settled arch m) {e : MachineEvent} (hok : Unpreempted m e) :
    Settled arch (arch.kernelStep m e) := by
  refine ⟨?_, ?_, ?_, ?_⟩
  · rw [kernelStep_stack]; exact hm.depth
  · exact kernelStep_protection (fun _ _ => mmuEnter_consistent) hm.consistent e
  · exact kernelStep_protection (I := fun s => KnownDomain s.currentDomain) (fun _ _ => mmuEnter_currentDomain)
      hm.domain e
  · rw [kernelStep_services]
    split
    · exact hm.services.step fun d hd => by subst hd; exact hok
    · exact hm.services

/-- What an exception of an unpreempted run does, one equation for each kind. -/
theorem unpreempted_trap_cases (arch : Arch) {t : Trap} {frame : TrapFrame} (hok : Unpreempted m (.trap t frame)) :
    (t = .svcReturn ∧ arch.trapStep m t frame = arch.svcReturn m frame) ∨
    (∃ kind, t = .svcCall kind ∧ arch.trapStep m t frame = arch.svcCall m kind frame) ∨
    m.Continues frame (arch.trapStep m t frame) := by
  cases t with
  | svcReturn => exact Or.inl ⟨rfl, rfl⟩
  | svcCall kind => exact Or.inr (Or.inl ⟨kind, rfl, rfl⟩)
  | timer =>
    rcases irqLowerEl_cases arch m frame with ⟨-, hc⟩ | ⟨⟨s, now, pre, hs, -⟩, -⟩
    · exact Or.inr (Or.inr hc)
    · have hidle : (m.sched.active && decide (m.preemptDisableCount = 0)) = false := by
        rcases hok with h | h
        · rw [h, Bool.false_and]
        · rw [decide_eq_false h, Bool.and_false]
      simp only [Machine.schedules, hidle] at hs
      cases hs
  | _ => exact hok.elim

theorem Settled.trapStep (hm : Settled arch m) {t : Trap} {frame : TrapFrame} (hok : Unpreempted m (.trap t frame)) :
    Settled arch (arch.trapStep m t frame) := by
  have hcons := trapStep_consistent hm.consistent t frame
  rcases unpreempted_trap_cases arch hok with ⟨rfl, heq⟩ | ⟨kind, rfl, heq⟩ | hc
  · rw [heq] at hcons ⊢
    cases hstack : m.stack with
    | nil =>
      rw [svcReturn_nil arch hstack]
      exact ⟨hm.depth, hm.consistent, hm.domain, hm.services⟩
    | cons f rest =>
      have hdepth := hm.depth
      rw [svcReturn_cons arch hstack] at hcons ⊢
      rw [hstack, List.length_cons] at hdepth
      exact ⟨Nat.le_of_succ_le hdepth, hcons, mmuEnter_currentDomain hm.domain, hm.services⟩
  · rw [heq] at hcons ⊢
    rcases svcCall_cases arch m kind frame with ⟨-, status, hcall⟩ | ⟨-, r, hr, hd, hcall⟩
    · rw [hcall]
      exact ⟨hm.depth, hm.consistent, hm.domain, hm.services⟩
    · rw [hcall] at hcons ⊢
      refine ⟨hd, hcons, ?_, hm.services⟩
      rw [show arch.callMmu m kind r.target.domain = _ from hm.callMmu kind (hm.target hr)]
      exact hm.target hr
  · obtain ⟨sched, ticks, heq⟩ := hc.eq
    rw [heq]
    exact ⟨hm.depth, hm.consistent, hm.domain, hm.services⟩

theorem Settled.step (hm : Settled arch m) {e : MachineEvent} (hok : Unpreempted m e) :
    Settled arch (arch.machineStep m e) := by
  unfold Arch.machineStep
  split
  · exact hm.kernelStep hok
  · split
    · exact hm.trapStep hok
    · exact hm
  · exact hm

end

theorem machineBoot_settled (arch : Arch) : Settled arch arch.machineBoot :=
  ⟨Nat.zero_le _, mmuInit_consistent, Or.inl rfl, fun _ h => absurd rfl h⟩

theorem Settled.run {arch : Arch} {h : MachineHistory} {m : Machine}
    (r : Run Unpreempted arch.machineStep arch.machineBoot h m) : Settled arch m :=
  r.invariant (I := Settled arch) (machineBoot_settled arch) fun _ _ hok hm => hm.step hok

/-! ## Inside a call -/

/-- No return is made at depth `d`: the call that brought the stack to `d` is still open. -/
def StaysOpen (d : Nat) (m : Machine) (e : MachineEvent) : Prop :=
  ∀ frame, e = .trap .svcReturn frame → d < m.stack.length

/-- The machine after a call made in `m` with registers `frame`, and before its return. -/
structure Inside (arch : Arch) (m : Machine) (frame : TrapFrame) (s : Machine) : Prop where
  settled : Settled arch s
  running : ∃ regs, s.exec = .el0 regs
  pac : s.pacEnabled = m.pacEnabled
  frames : (arch.callFrame m frame :: m.stack) <:+ s.stack

section
variable {arch : Arch} {m s : Machine} {frame : TrapFrame}

theorem Inside.trapStep (hs : Inside arch m frame s) {t : Trap} {tf : TrapFrame} (hok : Unpreempted s (.trap t tf))
    (hopen : StaysOpen (m.stack.length + 1) s (.trap t tf)) : Inside arch m frame (arch.trapStep s t tf) := by
  have hset := hs.settled.trapStep hok
  rcases unpreempted_trap_cases arch hok with ⟨rfl, heq⟩ | ⟨kind, rfl, heq⟩ | hc
  · have hdeep := hopen tf rfl
    rw [heq] at hset ⊢
    cases hstack : s.stack with
    | nil =>
      rw [hstack] at hdeep
      exact absurd hdeep (Nat.not_lt_zero _)
    | cons f rest =>
      have hframes := hs.frames
      rw [svcReturn_cons arch hstack] at hset ⊢
      rw [hstack] at hframes hdeep
      refine ⟨hset, ⟨_, rfl⟩, hs.pac, ?_⟩
      -- the frame popped lies above the call's own
      rcases List.suffix_cons_iff.1 hframes with hall | hrest
      · rw [← hall] at hdeep
        exact absurd hdeep (Nat.lt_irrefl _)
      · exact hrest
  · rw [heq] at hset ⊢
    rcases svcCall_cases arch s kind tf with ⟨-, status, hcall⟩ | ⟨-, r, -, -, hcall⟩
    · rw [hcall] at hset ⊢
      exact ⟨hset, ⟨_, rfl⟩, hs.pac, hs.frames⟩
    · rw [hcall] at hset ⊢
      exact ⟨hset, ⟨_, rfl⟩, hs.pac, hs.frames.trans (List.suffix_cons _ _)⟩
  · obtain ⟨sched, ticks, heq⟩ := hc.eq
    rw [heq] at hset ⊢
    exact ⟨hset, ⟨_, rfl⟩, hs.pac, hs.frames⟩

theorem Inside.step (hs : Inside arch m frame s) {e : MachineEvent} (hok : Unpreempted s e)
    (hopen : StaysOpen (m.stack.length + 1) s e) : Inside arch m frame (arch.machineStep s e) := by
  obtain ⟨regs, hregs⟩ := hs.running
  unfold Arch.machineStep
  rw [hregs]
  dsimp only
  split
  · exact hs.trapStep hok hopen
  · exact hs

/-- Entering a target. -/
structure Entered (arch : Arch) (m : Machine) (frame : TrapFrame) (res : CallResolution) (m' : Machine) : Prop where
  stack : ∃ f, m'.stack = f :: m.stack
  serviceId : m'.currentServiceId = (svcMessage frame).targetServiceId
  domain : m'.protection.currentDomain = res.target.domain
  ttbr0 : m'.protection.ttbr0 = arch.domainTtbr0Val res.target.domain
  exec : m'.exec = .el0
    { frame with elr := res.entry.entry, spsr := 0, spEl0 := domainStackTop res.target.domain }

/-- Being back in the caller `m`, which called with registers `frame`; the callee returned with
registers `out`, of which all general ones reach the caller. -/
structure Returned (m : Machine) (frame out : TrapFrame) (m' : Machine) : Prop where
  stack : m'.stack = m.stack
  serviceId : m'.currentServiceId = m.currentServiceId
  domain : m'.protection.currentDomain = m.protection.currentDomain
  ttbr0 : m'.protection.ttbr0 = m.protection.ttbr0
  exec : m'.exec = .el0 { out with elr := frame.elr, spsr := frame.spsr, spEl0 := frame.spEl0 }

theorem Settled.entered (hm : Settled arch m) {kind : GateKind} {r : CallResolution}
    (hr : svcResolve m.toKernel kind (svcMessage frame) = .ok r) (hd : m.stack.length < contextMax) :
    Entered arch m frame r (arch.svcCall m kind frame) := by
  rw [svcCall_entered arch hr hd, hm.callMmu kind (hm.target hr)]
  exact ⟨⟨_, rfl⟩, (registryLookup_eq_some.1 (svcResolve_ok hr).target).2.2.1, rfl, rfl, rfl⟩

theorem Settled.inside (hm : Settled arch m) {kind : GateKind} {r : CallResolution}
    (hr : svcResolve m.toKernel kind (svcMessage frame) = .ok r) (hd : m.stack.length < contextMax) :
    Inside arch m frame (arch.svcCall m kind frame) := by
  have hset : Settled arch (arch.svcCall m kind frame) :=
    hm.trapStep (show Unpreempted m (.trap (.svcCall kind) frame) from trivial)
  rw [svcCall_entered arch hr hd] at hset ⊢
  exact ⟨hset, ⟨_, rfl⟩, rfl, List.suffix_refl _⟩

/-- A return at the call's own depth gives everything back. -/
theorem Inside.returned (hpac : ∀ p modifier, arch.pacAuth (arch.pacSign p modifier) modifier = p)
    (hm : Settled arch m) (hs : Inside arch m frame s) (hd : s.stack.length = m.stack.length + 1) (out : TrapFrame) :
    Returned m frame out (arch.svcReturn s out) := by
  have hstack : s.stack = arch.callFrame m frame :: m.stack :=
    (hs.frames.eq_of_length (by rw [hd, List.length_cons])).symm
  have helr : arch.callerFrame s (arch.callFrame m frame) out =
      { out with elr := frame.elr, spsr := frame.spsr, spEl0 := frame.spEl0 } := by
    simp only [Arch.callerFrame, Arch.callFrame, hs.pac]
    cases m.pacEnabled with
    | false => rfl
    | true => simp only [↓reduceIte, hpac]
  rw [svcReturn_cons arch hstack, helr]
  have hmmu : arch.mmuEnter (arch.callFrame m frame).domainId s.protection = m.protection := by
    rw [mmuEnter_known hs.settled.consistent (show KnownDomain (arch.callFrame m frame).domainId from hm.domain)]
    exact Mmu.ext rfl hm.consistent.symm
  rw [hmmu]
  exact ⟨rfl, rfl, rfl, rfl, rfl⟩

end

/-- How SVC #1, #2 and #3, as `kind` says, behave in `m` with registers `frame`. -/
structure CallUnwinds (arch : Arch) (m : Machine) (kind : GateKind) (frame : TrapFrame) : Prop where
  /-- A refused call changes nothing but `x0`. -/
  refused : ∀ status, svcResolve m.toKernel kind (svcMessage frame) = .error status →
    arch.machineStep m (.trap (.svcCall kind) frame) = { m with exec := .el0 (frame.setX0 status.code) }
  /-- So does one made at depth 8. -/
  overflow : ∀ res, svcResolve m.toKernel kind (svcMessage frame) = .ok res → m.stack.length = contextMax →
    arch.machineStep m (.trap (.svcCall kind) frame) = { m with exec := .el0 (frame.setX0 Status.overflow.code) }
  /-- Any other pushes one frame and enters the entry registered for the request. -/
  entered : ∀ res, svcResolve m.toKernel kind (svcMessage frame) = .ok res → m.stack.length < contextMax →
    Resolved m.toKernel kind (svcMessage frame) res ∧
      Entered arch m frame res (arch.machineStep m (.trap (.svcCall kind) frame))
  /-- Whatever runs until a return is made at the depth of this call, that return restores the
  caller. -/
  returned : ∀ res, svcResolve m.toKernel kind (svcMessage frame) = .ok res → m.stack.length < contextMax →
    ∀ h' m', Run (fun s e => Unpreempted s e ∧ StaysOpen (m.stack.length + 1) s e) arch.machineStep
      (arch.machineStep m (.trap (.svcCall kind) frame)) h' m' → m'.stack.length = m.stack.length + 1 →
    ∀ out, Returned m frame out (arch.machineStep m' (.trap .svcReturn out))

/-- **Nested calls unwind exactly** in every run without preemption over services in known
domains, with PAC on or off, in either elevator mode: the depth never exceeds 8, TTBR0 is the
value precomputed for the current domain, and every call made from EL0 unwinds. -/
theorem nested_calls_unwind (arch : Arch) (hpac : ∀ p modifier, arch.pacAuth (arch.pacSign p modifier) modifier = p)
    {h : MachineHistory} {m : Machine} (r : Run Unpreempted arch.machineStep arch.machineBoot h m) :
    m.stack.length ≤ contextMax ∧ m.protection.ttbr0 = arch.domainTtbr0Val m.protection.currentDomain ∧
      ∀ regs, m.exec = .el0 regs → ∀ kind frame, CallUnwinds arch m kind frame := by
  have hm := Settled.run r
  refine ⟨hm.depth, hm.consistent, fun regs hregs kind frame => ?_⟩
  have hstep : arch.machineStep m (.trap (.svcCall kind) frame) = arch.svcCall m kind frame := by
    simp only [Arch.machineStep, hregs, Arch.trapStep]
  constructor
  · intro status herr
    rw [hstep, svcCall_error arch herr]
  · intro res hres hd
    rw [hstep, svcCall_overflow arch hres (Nat.le_of_eq hd.symm)]
  · intro res hres hd
    rw [hstep]
    exact ⟨svcResolve_ok hres, hm.entered hres hd⟩
  · intro res hres hd h' m' r' hdepth out
    rw [hstep] at r'
    have hin : Inside arch m frame m' := r'.invariant (I := Inside arch m frame) (hm.inside hres hd)
      fun _ _ hok hs => hs.step hok.1 hok.2
    obtain ⟨regs', hregs'⟩ := hin.running
    have hret : arch.machineStep m' (.trap .svcReturn out) = arch.svcReturn m' out := by
      simp only [Arch.machineStep, hregs', Arch.trapStep]
    rw [hret]
    exact hin.returned hpac hm hdepth out

/-- The camera in EL0 with PAC on, about to call the display. -/
def cameraEvents : List MachineEvent :=
  boardSetUp domainC ++ [.pacEnable true, .runEl0Service 0x41050200 domainA 10 callDisplay]

def cameraRun : MachineHistory × Machine :=
  traceFrom boardArch.machineStep [] boardArch.machineBoot cameraEvents

/-- The display, called by the camera, has a call of its own refused before it returns. -/
def displayRun : MachineHistory × Machine :=
  traceFrom boardArch.machineStep [] (boardArch.machineStep cameraRun.2 (.trap (.svcCall .sameLayer) callDisplay))
    [.trap (.svcCall .elevator) callSensor]

theorem nested_calls_unwind_display :
    (svcResolve cameraRun.2.toKernel .sameLayer (svcMessage callDisplay)).isOk ∧
      ∀ out, Returned cameraRun.2 callDisplay out (boardArch.machineStep displayRun.2 (.trap .svcReturn out)) := by
  have hpac : ∀ p modifier, boardArch.pacAuth (boardArch.pacSign p modifier) modifier = p := by
    intro p modifier
    simp only [boardArch]
    rw [BitVec.xor_assoc, BitVec.xor_self, BitVec.xor_zero]
  have r : Run Unpreempted boardArch.machineStep boardArch.machineBoot cameraRun.1 cameraRun.2 := by
    refine Run.start.trace ?_
    refine ⟨?_, ?_, ?_, trivial, trivial, trivial, trivial, trivial, trivial, trivial, trivial⟩
    · exact Or.inl rfl
    · exact Or.inr (Or.inl rfl)
    · exact Or.inr (Or.inr rfl)
  have hres : svcResolve cameraRun.2.toKernel .sameLayer (svcMessage callDisplay) =
      .ok ⟨⟨10, 3, domainA, 1⟩, ⟨20, 3, domainB, 1⟩, ⟨0x41050000, true⟩⟩ := by rfl
  have hcall := (nested_calls_unwind boardArch hpac r).2.2 _ rfl .sameLayer callDisplay
  refine ⟨by rw [hres]; rfl, hcall.returned _ hres (by decide +kernel) displayRun.1 displayRun.2 ?_ (by decide +kernel)⟩
  exact Run.start.trace ⟨⟨trivial, fun frame he => by cases he⟩, trivial⟩

end Lettuce
