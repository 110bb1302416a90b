import LettuceKernel.Mmu
import LettuceKernel.Scheduler
/-!
# The ARM64 machine (`kernel/arch/arm64/cpu.c`, `entry.S`, `elevator.S`)

| here | there |
| --- | --- |
| `Machine`            | the kernel, the MMU, the scheduler and the static variables of cpu.c and mmu.c |
| `Execution`          | who is running: the kernel (with the last status handed to it), EL0, or nobody |
| `Arch.contextPush`, `contextPop` | `lettuce_arch_context_push`, `_pop` (cpu.c:179, :198) |
| `Arch.svcReturn`     | SVC #0 (cpu.c:310-333) |
| `svcResolve`, `Arch.svcCall` | SVC #1, #2, #3 (:335-435) |
| `Arch.elevatorAsmTransition` | elevator.S:41-55 |
| `Arch.svcYield`      | SVC #4 (:436-440) |
| `Arch.irqLowerEl`    | `lettuce_arch_irq_lower_el_handler` (:590) on the timer interrupt |
| `Arch.trapStep`      | one exception from EL0 |
| `Arch.kernelStep`    | one operation of the kernel between two excursions |

EL0 code may do anything to its registers between two exceptions, so an exception comes with
the trap frame it finds; the frame the handler leaves is the one in `Execution.el0`.
`lettuce_el0_resume_kernel` abandons the handler, so it ends the step with `Execution.kernel`.
SVC #5 is not a step of this machine: `Syscalls.lean` adds it on top. The context stack is a list, innermost frame first: the
array cells above `g_context_stack_depth` are never read.
-/

namespace Lettuce

open Runs

/-- `LETTUCE_ARCH_CONTEXT_MAX` (cpu.c:114). -/
def contextMax : Nat := 8

/-- `LettuceArchContextFrame`: the caller of a call still open. -/
structure ArchContextFrame where
  serviceId : ServiceId
  domainId : DomainId
  elr : Reg
  spsr : Reg
  spEl0 : Reg
deriving DecidableEq, Repr

inductive Execution where
  | kernel (status : Reg)
  | el0 (frame : TrapFrame)
  | halted

structure Machine extends GateState Mmu where
  sched : Scheduler
  stack : List ArchContextFrame
  pacEnabled : Bool
  elevatorUseAsm : Bool
  preemptDisableCount : BitVec 32
  expectingFault : Bool
  expectingSysregTrap : Bool
  timerTicks : BitVec 64
  exec : Execution

/-- An exception taken from EL0. `fatal` is everything the handlers only report before they
halt: another SVC immediate, an instruction abort, an unknown class. -/
inductive Trap where
  | svcReturn
  | svcCall (kind : GateKind)
  | svcYield
  | dataAbort
  | sysregTrap
  | timer
  | fatal
deriving DecidableEq, Repr

inductive MachineEvent where
  | kernel (e : KernelEvent)
  | sched (e : SchedEvent)
  | mmuEnter (domain : DomainId)
  | pacEnable (enable : Bool)
  | elevatorSetUseAsm (useAsm : Bool)
  | preemptDisable
  | preemptEnable
  | expectFault
  | expectSysregTrap
  | timerInit
  | irqEl1
  | runEl0Service (entryPc : Reg) (domain : DomainId) (service : ServiceId) (regs : TrapFrame)
  | trap (t : Trap) (frame : TrapFrame)

abbrev MachineHistory := List (Machine × MachineEvent)

def TrapFrame.setX0 (frame : TrapFrame) (value : Reg) : TrapFrame :=
  { frame with x := Function.update frame.x 0 value }

/-- The number of a system call is in `x8`, its arguments are in `x0`..`x2` (arch.h:68). -/
def TrapFrame.sysNo (frame : TrapFrame) : Reg := frame.x 8

def TrapFrame.arg0 (frame : TrapFrame) : Reg := frame.x 0

def TrapFrame.arg1 (frame : TrapFrame) : Reg := frame.x 1

def TrapFrame.arg2 (frame : TrapFrame) : Reg := frame.x 2

/-- The request in `x0`..`x3`, each cut to 32 bits. -/
def svcMessage (frame : TrapFrame) : CallMessage where
  targetServiceId := (frame.x 0).setWidth 32
  operationId := (frame.x 1).setWidth 32
  resourceId := (frame.x 2).setWidth 32
  capabilityHandle := (frame.x 3).setWidth 32

def svcValidate (k : Kernel) (kind : GateKind) (m : CallMessage) : Except Status CallResolution :=
  match kind with
  | .sameLayer => sameLayerValidate k m.targetServiceId m.operationId m.resourceId m.capabilityHandle
  | .crossLayer => crossLayerValidate k (some m)
  | .elevator => elevatorPolicy k (some m)

/-- Validation and the check of the entry pointer that follows it (cpu.c:396). -/
def svcResolve (k : Kernel) (kind : GateKind) (m : CallMessage) : Except Status CallResolution :=
  match svcValidate k kind m with
  | .error status => .error status
  | .ok resolution =>
    if resolution.entry.entry = 0 then .error .invalidTargetEntry else .ok resolution

/-- `LettuceElevatorDescriptor` (elevator_asm.h:24), the fields the assembly reads. -/
structure ElevatorDescriptor where
  targetEntryPc : Reg
  targetSpEl0 : Reg
  targetTtbr0Val : Reg

namespace Arch

variable (arch : Arch)

/-- `false` is `none`. -/
def contextPush (m : Machine) (svc : ServiceId) (dom : DomainId) (elr spsr spEl0 : Reg) : Option Machine :=
  if m.stack.length ≥ contextMax then none
  else
    let storedElr := if m.pacEnabled then arch.pacSign elr (svc.setWidth 64) else elr
    some { m with stack := { serviceId := svc, domainId := dom, elr := storedElr, spsr, spEl0 } :: m.stack }

def contextPop (m : Machine) : Option (ArchContextFrame × Machine) :=
  match m.stack with
  | [] => none
  | out :: rest =>
    let elr := if m.pacEnabled then arch.pacAuth out.elr (out.serviceId.setWidth 64) else out.elr
    some ({ out with elr }, { m with stack := rest })

/-- `x0` carries the callee's status through. -/
def svcReturn (m : Machine) (frame : TrapFrame) : Machine :=
  match arch.contextPop m with
  | none => { m with exec := .kernel (frame.x 0) }
  | some (caller, m) =>
    { m with
      protection := arch.mmuLeave caller.domainId m.protection
      currentServiceId := caller.serviceId
      exec := .el0 { frame with elr := caller.elr, spsr := caller.spsr, spEl0 := caller.spEl0 } }

/-- The TTBR0 write and the three stores into the frame. -/
def elevatorAsmTransition (desc : ElevatorDescriptor) (s : Mmu) (frame : TrapFrame) : Mmu × TrapFrame :=
  ({ s with ttbr0 := desc.targetTtbr0Val },
    { frame with elr := desc.targetEntryPc, spsr := 0, spEl0 := desc.targetSpEl0 })

/-- The domain switch and the frame of the target, after the push (cpu.c:408-434). -/
def enterTarget (m : Machine) (kind : GateKind) (resolution : CallResolution) (frame : TrapFrame) : Machine :=
  if kind = .elevator && m.elevatorUseAsm then
    let desc : ElevatorDescriptor :=
      { targetEntryPc := resolution.entry.entry
        targetSpEl0 := domainStackTop resolution.target.domain
        targetTtbr0Val := arch.domainTtbr0Val resolution.target.domain }
    let (mmu, frame) := elevatorAsmTransition desc (mmuSetCurrentDomain resolution.target.domain m.protection) frame
    { m with currentServiceId := resolution.target.id, protection := mmu, exec := .el0 frame }
  else
    { m with
      protection := arch.mmuEnter resolution.target.domain m.protection
      currentServiceId := resolution.target.id
      exec := .el0
        { frame with
          elr := resolution.entry.entry, spsr := 0, spEl0 := domainStackTop resolution.target.domain } }

def svcCall (m : Machine) (kind : GateKind) (frame : TrapFrame) : Machine :=
  match svcResolve m.toKernel kind (svcMessage frame) with
  | .error status => { m with exec := .el0 (frame.setX0 status.code) }
  | .ok resolution =>
    match arch.contextPush m m.currentServiceId m.protection.currentDomain frame.elr frame.spsr frame.spEl0 with
    | none => { m with exec := .el0 (frame.setX0 Status.overflow.code) }
    | some m => arch.enterTarget m kind resolution frame

/-- What `do_schedule` did outside the scheduler, performed. -/
def scheduled (m : Machine) (frame : TrapFrame) (r : ScheduleResult) : Machine :=
  match r.handoff with
  | none => { m with sched := r.sched, exec := .el0 (r.frame.getD frame) }
  | some handoff =>
    { m with
      sched := r.sched
      protection := match handoff.domain with
        | none => m.protection
        | some d => arch.mmuEnter d m.protection
      currentServiceId := handoff.serviceId
      exec := if handoff.resumeKernel then .kernel Status.ok.code else .el0 (r.frame.getD frame) }

def svcYield (m : Machine) (frame : TrapFrame) : Machine :=
  arch.scheduled m frame (schedulerYield m.sched m.timerTicks (some frame))

def irqLowerEl (m : Machine) (frame : TrapFrame) : Machine :=
  let m := { m with timerTicks := m.timerTicks + 1 }
  if m.sched.active && decide (m.preemptDisableCount = 0) then
    arch.scheduled m frame (schedulerTick m.sched m.timerTicks (some frame))
  else { m with exec := .el0 frame }

/-- An expected data abort goes back to the kernel, any other halts (cpu.c:509-518). -/
def dataAbort (m : Machine) : Machine :=
  if m.expectingFault then { m with expectingFault := false, exec := .kernel Status.aborted.code }
  else { m with exec := .halted }

/-- cpu.c:536-545. -/
def sysregTrap (m : Machine) : Machine :=
  if m.expectingSysregTrap then { m with expectingSysregTrap := false, exec := .kernel Status.denied.code }
  else { m with exec := .halted }

def trapStep (m : Machine) (t : Trap) (frame : TrapFrame) : Machine :=
  match t with
  | .svcReturn => arch.svcReturn m frame
  | .svcCall kind => arch.svcCall m kind frame
  | .svcYield => arch.svcYield m frame
  | .dataAbort => dataAbort m
  | .sysregTrap => sysregTrap m
  | .timer => arch.irqLowerEl m frame
  | .fatal => { m with exec := .halted }

/-- `run_el0_service` (main.c:98), with `lettuce_el0_enter` (entry.S:40): what else is in the
registers at the ERET is left from the kernel. -/
def runEl0Service (m : Machine) (entryPc : Reg) (domain : DomainId) (service : ServiceId) (regs : TrapFrame) :
    Machine :=
  { m with
    currentServiceId := service
    protection := arch.mmuEnter domain m.protection
    exec := .el0 { regs with elr := entryPc, spsr := 0, spEl0 := domainStackTop domain } }

/-- The kernel's operations. Of the scheduler interface only the calls that do not schedule are
made here: ticks and yields come from EL0 (the tick on a dummy frame in Test 22 is left out). -/
def kernelStep (m : Machine) : MachineEvent → Machine
  | .kernel e => { m with toGateState := gateStep arch.mmuProtection m.toGateState e }
  | .sched e => if e.scheduling.isSome then m else { m with sched := schedStep m.sched e }
  | .mmuEnter domain => { m with protection := arch.mmuEnter domain m.protection }
  | .pacEnable enable => { m with pacEnabled := enable }
  | .elevatorSetUseAsm useAsm => { m with elevatorUseAsm := useAsm }
  | .preemptDisable => { m with preemptDisableCount := m.preemptDisableCount + 1 }
  | .preemptEnable =>
    if m.preemptDisableCount > 0 then { m with preemptDisableCount := m.preemptDisableCount - 1 } else m
  | .expectFault => { m with expectingFault := true }
  | .expectSysregTrap => { m with expectingSysregTrap := true }
  | .timerInit => { m with timerTicks := 0 }
  | .irqEl1 => { m with timerTicks := m.timerTicks + 1 }
  | .runEl0Service entryPc domain service regs => arch.runEl0Service m entryPc domain service regs
  | .trap _ _ => m

/-- An event that cannot happen in the current mode changes nothing. -/
def machineStep (m : Machine) (e : MachineEvent) : Machine :=
  match m.exec with
  | .kernel _ => arch.kernelStep m e
  | .el0 _ =>
    match e with
    | .trap t frame => arch.trapStep m t frame
    | _ => m
  | .halted => m

/-- After `lettuce_mmu_init`. -/
def machineBoot : Machine where
  toKernel := kernelBoot
  protection := arch.mmuInit
  calls := []
  sched := schedulerBoot
  stack := []
  pacEnabled := false
  elevatorUseAsm := true
  preemptDisableCount := 0
  expectingFault := false
  expectingSysregTrap := false
  timerTicks := 0
  exec := .kernel 0

end Arch

/-! ## Calls and returns -/

theorem svcResolve_ok {k : Kernel} {kind : GateKind} {msg : CallMessage} {r : CallResolution}
    (h : svcResolve k kind msg = .ok r) : Resolved k kind msg r := by
  unfold svcResolve at h
  split at h
  · cases h
  · rename_i res hres
    split at h
    · cases h
    · rename_i hentry
      cases h
      cases kind with
      | sameLayer => exact sameLayerValidate_ok hres hentry
      | crossLayer => exact crossLayerValidate_ok hres
      | elevator => exact elevatorPolicy_ok hres

/-- The call passes validation and finds room on the stack. -/
def Machine.accepts (m : Machine) (kind : GateKind) (frame : TrapFrame) : Bool :=
  decide (m.stack.length < contextMax) && (svcResolve m.toKernel kind (svcMessage frame)).isOk

/-- The registers a target starts with. -/
def entryFrame (r : CallResolution) (frame : TrapFrame) : TrapFrame :=
  { frame with elr := r.entry.entry, spsr := 0, spEl0 := domainStackTop r.target.domain }

namespace Arch

variable (arch : Arch)

/-- The frame a call made in `m` pushes. -/
def callFrame (m : Machine) (frame : TrapFrame) : ArchContextFrame where
  serviceId := m.currentServiceId
  domainId := m.protection.currentDomain
  elr := if m.pacEnabled then arch.pacSign frame.elr (m.currentServiceId.setWidth 64) else frame.elr
  spsr := frame.spsr
  spEl0 := frame.spEl0

/-- The MMU after the domain switch of a call to `d`. -/
def callMmu (m : Machine) (kind : GateKind) (d : DomainId) : Mmu :=
  if kind = .elevator && m.elevatorUseAsm then { currentDomain := d, ttbr0 := arch.domainTtbr0Val d }
  else arch.mmuEnter d m.protection

/-- The registers a return resumes the caller `f` with. -/
def callerFrame (m : Machine) (f : ArchContextFrame) (frame : TrapFrame) : TrapFrame :=
  { frame with
    elr := if m.pacEnabled then arch.pacAuth f.elr (f.serviceId.setWidth 64) else f.elr
    spsr := f.spsr, spEl0 := f.spEl0 }

end Arch

section
variable (arch : Arch) {m : Machine} {kind : GateKind} {frame : TrapFrame} {r : CallResolution}

theorem svcCall_error {status : Status} (h : svcResolve m.toKernel kind (svcMessage frame) = .error status) :
    arch.svcCall m kind frame = { m with exec := .el0 (frame.setX0 status.code) } := by
  simp only [Arch.svcCall, h]

theorem svcCall_overflow (h : svcResolve m.toKernel kind (svcMessage frame) = .ok r)
    (hd : contextMax ≤ m.stack.length) :
    arch.svcCall m kind frame = { m with exec := .el0 (frame.setX0 Status.overflow.code) } := by
  simp only [Arch.svcCall, h, Arch.contextPush, ge_iff_le, hd, ↓reduceIte]

theorem svcCall_entered (h : svcResolve m.toKernel kind (svcMessage frame) = .ok r)
    (hd : m.stack.length < contextMax) :
    arch.svcCall m kind frame =
      { m with
        currentServiceId := r.target.id
        protection := arch.callMmu m kind r.target.domain
        stack := arch.callFrame m frame :: m.stack
        exec := .el0 (entryFrame r frame) } := by
  simp only [Arch.svcCall, h, Arch.contextPush, ge_iff_le, Nat.not_le.2 hd, ↓reduceIte]
  by_cases hasm : (decide (kind = .elevator) && m.elevatorUseAsm) = true
  · simp only [Arch.enterTarget, hasm, Arch.callMmu, ↓reduceIte]
    rfl
  · simp only [Arch.enterTarget, hasm, Arch.callMmu]
    rfl

/-- Every SVC call is refused, finds the stack full or enters its target. -/
theorem svcCall_cases (m : Machine) (kind : GateKind) (frame : TrapFrame) :
    (m.accepts kind frame = false ∧
      ∃ status : Status, arch.svcCall m kind frame = { m with exec := .el0 (frame.setX0 status.code) }) ∨
    (m.accepts kind frame = true ∧ ∃ r, svcResolve m.toKernel kind (svcMessage frame) = .ok r ∧
      m.stack.length < contextMax ∧ arch.svcCall m kind frame =
        { m with
          currentServiceId := r.target.id
          protection := arch.callMmu m kind r.target.domain
          stack := arch.callFrame m frame :: m.stack
          exec := .el0 (entryFrame r frame) }) := by
  unfold Machine.accepts
  cases h : svcResolve m.toKernel kind (svcMessage frame) with
  | error status =>
    left
    exact ⟨by simp [Except.isOk, Except.toBool], status, svcCall_error arch h⟩
  | ok r =>
    by_cases hd : m.stack.length < contextMax
    · right
      exact ⟨by simp [hd, Except.isOk, Except.toBool], r, rfl, hd, svcCall_entered arch h hd⟩
    · left
      exact ⟨by simp [hd], .overflow, svcCall_overflow arch h (Nat.not_lt.1 hd)⟩

theorem svcReturn_nil (h : m.stack = []) : arch.svcReturn m frame = { m with exec := .kernel (frame.x 0) } := by
  simp only [Arch.svcReturn, Arch.contextPop, h]

theorem svcReturn_cons {f : ArchContextFrame} {rest : List ArchContextFrame} (h : m.stack = f :: rest) :
    arch.svcReturn m frame =
      { m with
        currentServiceId := f.serviceId
        protection := arch.mmuEnter f.domainId m.protection
        stack := rest
        exec := .el0 (arch.callerFrame m f frame) } := by
  simp only [Arch.svcReturn, Arch.contextPop, h, Arch.mmuLeave]
  rfl

end

/-! ## Yields and ticks -/

/-- The scheduler state, timer value and kind of switch with which an exception reaches
`do_schedule`, if it does. -/
def Machine.schedules (m : Machine) : Trap → Option (Scheduler × BitVec 64 × Bool)
  | .svcYield =>
    match m.sched.current with
    | none => none
    | some c => some (m.sched.setTask c (m.sched.tasks c).dropSlice, m.timerTicks, false)
  | .timer =>
    if m.sched.active && decide (m.preemptDisableCount = 0) then some (m.sched, m.timerTicks + 1, true) else none
  | _ => none

/-- The exception makes `do_schedule` hand the processor to another task. -/
def Machine.SwitchDue (m : Machine) (t : Trap) (frame : TrapFrame) : Prop :=
  ∃ s now pre, m.schedules t = some (s, now, pre) ∧ s.SwitchDue now.toNat frame pre

/-- The exception is handled without a switch and EL0 goes on as it was. -/
structure Machine.Continues (m : Machine) (frame : TrapFrame) (m' : Machine) : Prop where
  eq : ∃ sched ticks, m' = { m with sched := sched, timerTicks := ticks, exec := .el0 frame }
  current : m'.sched.current = m.sched.current
  move : ∀ i, TaskMove (m.sched.tasks i) (m'.sched.tasks i)

/-- The processor goes from the current task to task `j`. -/
structure Machine.SwitchesTo (arch : Arch) (m : Machine) (t : Trap) (j : Slot) (m' : Machine) : Prop where
  eq : ∃ sched ticks, m' =
    { m with
      sched := sched
      timerTicks := ticks
      protection := if sameDomain m.sched j then m.protection
        else arch.mmuEnter (m.sched.tasks j).domainId m.protection
      currentServiceId := (m.sched.tasks j).serviceId
      exec := if t = .timer && m.sched.limitReached true then .kernel Status.ok.code
        else .el0 (m.sched.tasks j).context.restore }
  other : m.sched.current ≠ some j
  live : (m.sched.tasks j).Live
  current : m'.sched.current = some j
  move : ∀ i, TaskMove (m.sched.tasks i) (m'.sched.tasks i)

section
variable (arch : Arch) {m : Machine} {frame : TrapFrame}

/-- `do_schedule`, started on a scheduler that differs from the machine's at most in the slice of
the current task. -/
theorem scheduled_cases {s : Scheduler} {pre : Bool} {t : Trap} (now : Nat) (ticks : BitVec 64)
    (hcur : s.current = m.sched.current) (hcount : s.preemptCount = m.sched.preemptCount)
    (hlimit : s.preemptLimit = m.sched.preemptLimit)
    (hid : ∀ i, TaskMove (m.sched.tasks i) (s.tasks i))
    (hother : ∀ i, m.sched.current ≠ some i → s.tasks i = m.sched.tasks i)
    (hpre : pre = decide (t = .timer)) :
    (¬ s.SwitchDue now frame pre ∧
      m.Continues frame (arch.scheduled { m with timerTicks := ticks } frame (doSchedule s now (some frame) pre))) ∨
    (s.SwitchDue now frame pre ∧ ∃ j, m.SwitchesTo arch t j
      (arch.scheduled { m with timerTicks := ticks } frame (doSchedule s now (some frame) pre))) := by
  have hmove := doSchedule_move s now (some frame) pre
  rw [← doSchedule_handoff]
  rcases doSchedule_spec s now (some frame) pre with hst | ⟨tf, j, htf, hsw⟩
  · left
    simp only [Arch.scheduled, hst.handoff, hst.frame, Option.isSome_none, Bool.false_eq_true,
      not_false_eq_true, true_and]
    exact ⟨⟨_, _, rfl⟩, hst.current.trans hcur, fun i => (hid i).trans (hmove i)⟩
  · right
    cases htf
    have hne : m.sched.current ≠ some j := hcur ▸ hsw.other
    have hj := hother j hne
    have hdom : sameDomain s j = sameDomain m.sched j := sameDomain_congr hcur fun i => ident_domainId (hid i).ident
    have hreached : s.limitReached pre = (decide (t = .timer) && m.sched.limitReached true) := by
      rw [limitReached_congr hcount hlimit, hpre]
      cases decide (t = .timer) <;> rfl
    refine ⟨by rw [hsw.handoff]; rfl, j, ⟨(doSchedule s now (some frame) pre).sched, ticks, ?_⟩, hne,
      hj ▸ runnable_live hsw.runnable, ?_, ?_⟩
    · simp only [Arch.scheduled, hsw.handoff, hsw.frame, hdom, hreached, hj, Option.getD_some]
      cases sameDomain m.sched j <;> rfl
    · simp only [Arch.scheduled, hsw.handoff]
      exact hsw.current
    · intro i
      simp only [Arch.scheduled, hsw.handoff]
      exact (hid i).trans (hmove i)

theorem svcYield_cases (m : Machine) (frame : TrapFrame) :
    (¬ m.SwitchDue .svcYield frame ∧ m.Continues frame (arch.svcYield m frame)) ∨
    (m.SwitchDue .svcYield frame ∧ ∃ j, m.SwitchesTo arch .svcYield j (arch.svcYield m frame)) := by
  unfold Arch.svcYield schedulerYield
  cases hc : m.sched.current with
  | none =>
    left
    simp only [Machine.SwitchDue, Machine.schedules, hc, reduceCtorEq, false_and, exists_false,
      not_false_eq_true, true_and]
    exact ⟨⟨m.sched, m.timerTicks, rfl⟩, rfl, fun _ => TaskMove.refl _⟩
  | some c =>
    have hdue : m.SwitchDue .svcYield frame ↔
        (m.sched.setTask c (m.sched.tasks c).dropSlice).SwitchDue m.timerTicks.toNat frame false := by
      simp [Machine.SwitchDue, Machine.schedules, hc]
    rw [hdue]
    have hid : ∀ i, TaskMove (m.sched.tasks i) ((m.sched.setTask c (m.sched.tasks c).dropSlice).tasks i) := by
      intro i
      by_cases hi : i = c
      · subst hi; simp only [Scheduler.setTask, Function.update_self]; exact ⟨rfl, Iff.rfl, id⟩
      · simp only [Scheduler.setTask, Function.update_of_ne hi]; exact TaskMove.refl _
    refine scheduled_cases arch _ m.timerTicks rfl rfl rfl hid (fun i hi => ?_) rfl
    have hne : i ≠ c := fun he => hi (he ▸ hc)
    simp [Scheduler.setTask, hne]

theorem irqLowerEl_cases (m : Machine) (frame : TrapFrame) :
    (¬ m.SwitchDue .timer frame ∧ m.Continues frame (arch.irqLowerEl m frame)) ∨
    (m.SwitchDue .timer frame ∧ ∃ j, m.SwitchesTo arch .timer j (arch.irqLowerEl m frame)) := by
  unfold Arch.irqLowerEl
  by_cases hrun : (m.sched.active && decide (m.preemptDisableCount = 0)) = true
  · have hdue : m.SwitchDue .timer frame ↔ m.sched.SwitchDue (m.timerTicks + 1).toNat frame true := by
      simp only [Machine.SwitchDue, Machine.schedules, hrun, ↓reduceIte, Option.some.injEq, Prod.mk.injEq]
      exact ⟨fun ⟨_, _, _, ⟨hs, hnow, hpre⟩, h⟩ => hs ▸ hnow ▸ hpre ▸ h, fun h => ⟨_, _, _, ⟨rfl, rfl, rfl⟩, h⟩⟩
    rw [hdue]
    simp only [hrun, ↓reduceIte]
    exact scheduled_cases arch _ _ rfl rfl rfl (fun _ => TaskMove.refl _) (fun _ _ => rfl) rfl
  · left
    have hnot : ¬ m.SwitchDue .timer frame := by
      rintro ⟨s, now, pre, hs, -⟩
      simp only [Machine.schedules, hrun] at hs
      cases hs
    simp only [hrun]
    exact ⟨hnot, ⟨m.sched, _, rfl⟩, rfl, fun _ => TaskMove.refl _⟩

/-- A yield or a tick leaves the current task running or hands over to another one. -/
theorem yieldOrTick_cases (m : Machine) {t : Trap} (ht : t = .svcYield ∨ t = .timer) (frame : TrapFrame) :
    (¬ m.SwitchDue t frame ∧ m.Continues frame (arch.trapStep m t frame)) ∨
    (m.SwitchDue t frame ∧ ∃ j, m.SwitchesTo arch t j (arch.trapStep m t frame)) := by
  rcases ht with rfl | rfl
  · exact svcYield_cases arch m frame
  · exact irqLowerEl_cases arch m frame

end

/-! ## Steps by mode -/

def Machine.inEl0 (m : Machine) : Bool :=
  match m.exec with
  | .el0 _ => true
  | _ => false

theorem inEl0_eq_true {m : Machine} : m.inEl0 = true ↔ ∃ regs, m.exec = .el0 regs := by
  unfold Machine.inEl0
  cases m.exec <;> simp

/-- The exceptions tasks take in turn: calls, returns, yields and timer ticks. -/
def TaskTrap : MachineEvent → Prop
  | .trap .svcReturn _ => True
  | .trap (.svcCall _) _ => True
  | .trap .svcYield _ => True
  | .trap .timer _ => True
  | _ => False

section
variable (arch : Arch) {m : Machine}

theorem machineStep_trap (hm : m.inEl0 = true) (t : Trap) (frame : TrapFrame) :
    arch.machineStep m (.trap t frame) = arch.trapStep m t frame := by
  obtain ⟨regs, hregs⟩ := inEl0_eq_true.1 hm
  simp only [Arch.machineStep, hregs]

/-- Outside EL0 an exception from EL0 cannot happen. -/
theorem machineStep_trap_of_not (hm : m.inEl0 = false) (t : Trap) (frame : TrapFrame) :
    arch.machineStep m (.trap t frame) = m := by
  unfold Machine.inEl0 at hm
  unfold Arch.machineStep
  split
  · rfl
  · rename_i regs hregs
    rw [hregs] at hm
    cases hm
  · rfl

theorem kernelStep_stack (m : Machine) (e : MachineEvent) : (arch.kernelStep m e).stack = m.stack := by
  cases e with
  | sched e =>
    simp only [Arch.kernelStep]
    split <;> rfl
  | preemptEnable =>
    simp only [Arch.kernelStep]
    split <;> rfl
  | _ => rfl

theorem kernelStep_services (m : Machine) (e : MachineEvent) : (arch.kernelStep m e).services =
    match e with
    | .kernel e => servicesStep m.services e
    | _ => m.services := by
  cases e with
  | kernel e => exact (gateStep_tables arch.mmuProtection m.toGateState e).1
  | sched e =>
    simp only [Arch.kernelStep]
    split <;> rfl
  | preemptEnable =>
    simp only [Arch.kernelStep]
    split <;> rfl
  | _ => rfl

/-- Only `run_el0_service` leaves the kernel. -/
theorem kernelStep_exec (m : Machine) {e : MachineEvent}
    (he : ∀ entryPc domain service regs, e ≠ .runEl0Service entryPc domain service regs) :
    (arch.kernelStep m e).exec = m.exec := by
  cases e with
  | sched e =>
    simp only [Arch.kernelStep]
    split <;> rfl
  | preemptEnable =>
    simp only [Arch.kernelStep]
    split <;> rfl
  | runEl0Service entryPc domain service regs => exact absurd rfl (he _ _ _ _)
  | _ => rfl

end

/-! ## The MMU register follows the current domain -/

section
variable {arch : Arch}

/-- What entering a domain keeps, every operation of the kernel keeps. -/
theorem kernelStep_protection {I : Mmu → Prop} (henter : ∀ d s, I s → I (arch.mmuEnter d s)) {m : Machine}
    (hm : I m.protection) (e : MachineEvent) : I (arch.kernelStep m e).protection := by
  cases e with
  | kernel e => exact gateStep_protection (π := arch.mmuProtection) henter henter hm e
  | sched e =>
    simp only [Arch.kernelStep]
    split <;> exact hm
  | mmuEnter domain => exact henter domain _ hm
  | preemptEnable =>
    simp only [Arch.kernelStep]
    split <;> exact hm
  | runEl0Service entryPc domain service regs => exact henter domain _ hm
  | _ => exact hm

theorem callMmu_consistent {m : Machine} (hm : m.protection.Consistent arch) (kind : GateKind) (d : DomainId) :
    (arch.callMmu m kind d).Consistent arch := by
  unfold Arch.callMmu
  split
  · rfl
  · exact mmuEnter_consistent hm

theorem Machine.SwitchesTo.consistent {m m' : Machine} {t : Trap} {j : Slot} (h : m.SwitchesTo arch t j m')
    (hm : m.protection.Consistent arch) : m'.protection.Consistent arch := by
  obtain ⟨sched, ticks, rfl⟩ := h.eq
  dsimp only
  split
  · exact hm
  · exact mmuEnter_consistent hm

theorem Machine.Continues.protection {m m' : Machine} {frame : TrapFrame} (h : m.Continues frame m') :
    m'.protection = m.protection := by
  obtain ⟨sched, ticks, rfl⟩ := h.eq
  rfl

theorem trapStep_consistent {m : Machine} (hm : m.protection.Consistent arch) (t : Trap) (frame : TrapFrame) :
    (arch.trapStep m t frame).protection.Consistent arch := by
  have hsched := fun ht => yieldOrTick_cases arch m (t := t) ht frame
  cases t with
  | svcReturn =>
    simp only [Arch.trapStep]
    cases hstack : m.stack with
    | nil => rw [svcReturn_nil arch hstack]; exact hm
    | cons f rest => rw [svcReturn_cons arch hstack]; exact mmuEnter_consistent hm
  | svcCall kind =>
    simp only [Arch.trapStep]
    rcases svcCall_cases arch m kind frame with ⟨-, status, heq⟩ | ⟨-, r, -, -, heq⟩
    · rw [heq]; exact hm
    · rw [heq]; exact callMmu_consistent hm kind r.target.domain
  | svcYield | timer =>
    rcases hsched (by simp) with ⟨-, hc⟩ | ⟨-, j, hsw⟩
    · exact hc.protection ▸ hm
    · exact hsw.consistent hm
  | dataAbort =>
    simp only [Arch.trapStep, Arch.dataAbort]
    split <;> exact hm
  | sysregTrap =>
    simp only [Arch.trapStep, Arch.sysregTrap]
    split <;> exact hm
  | fatal => exact hm

theorem machineStep_consistent {m : Machine} (hm : m.protection.Consistent arch) (e : MachineEvent) :
    (arch.machineStep m e).protection.Consistent arch := by
  unfold Arch.machineStep
  split
  · exact kernelStep_protection (fun _ _ => mmuEnter_consistent) hm e
  · split
    · exact trapStep_consistent hm _ _
    · exact hm
  · exact hm

/-- In every state the machine can reach, whatever domains services were registered with. -/
theorem machineRun_consistent {ok : Machine → MachineEvent → Prop} {m₀ m : Machine} {h : MachineHistory}
    (r : Run ok arch.machineStep m₀ h m) (h0 : m₀.protection.Consistent arch) : m.protection.Consistent arch :=
  r.invariant (I := fun m => m.protection.Consistent arch) h0 fun _ e _ hm => machineStep_consistent hm e

/-! ## The set-up of main.c -/

/-- Page-aligned root tables, and a PAC that mixes the modifier into the top 16 bits. -/
def boardArch : Arch where
  l1Root := fun i => 0x40090000 + BitVec.ofNat 64 (i.val * 0x1000)
  pacSign := fun p modifier => p ^^^ (modifier <<< 48)
  pacAuth := fun p modifier => p ^^^ (modifier <<< 48)

/-- Camera (10) and display (20) on layer 3, a sensor (40) on layer 2 in the given domain; the
camera may call the display, and the sensor by cross-layer and elevator calls (main.c:252-296,
:466, :647, :670). -/
def boardSetUp (sensorDomain : DomainId) : List MachineEvent :=
  [.kernel (.registryRegister ⟨10, 3, domainA, 1⟩), .kernel (.registryRegister ⟨20, 3, domainB, 1⟩),
    .kernel (.registryRegister ⟨40, 2, sensorDomain, 1⟩), .kernel (.dispatchRegister 20 1 0x41050000),
    .kernel (.dispatchRegister 40 1 0x41050100), .kernel .capabilityInit,
    .kernel (.capabilityCreate 10 20 1 capCall 1),
    .kernel (.capabilityCreate 10 40 1 (capCall ||| capCritical) 2)]

/-- The registers of `svc #n` with a request in `x0`..`x3`. -/
def requestFrame (target op resource handle elr : Reg) : TrapFrame where
  x := fun r => if r = 0 then target else if r = 1 then op else if r = 2 then resource else if r = 3 then handle else 0
  lr := 0
  elr := elr
  spsr := 0
  spEl0 := 0x41002000

/-- The camera's call of the display, and its call of the sensor. -/
def callDisplay : TrapFrame := requestFrame 20 1 1 0x00010001 0x41050204
def callSensor : TrapFrame := requestFrame 40 1 2 0x00010002 0x41050304

/-- A scheduled run (main.c:767-793) of two tasks, a camera and a display; the camera is in EL0. -/
def twoTaskSetUp : List MachineEvent :=
  boardSetUp domainC ++
    [.sched .init, .sched (.create 10 domainA 0x41050200 (domainStackTop domainA)),
      .sched (.create 20 domainB 0x41050000 (domainStackTop domainB)), .sched (.adopt firstSlot), .sched .start,
      .runEl0Service 0x41050200 domainA 10 callDisplay]

def twoTaskRun : MachineHistory × Machine :=
  traceFrom boardArch.machineStep [] boardArch.machineBoot twoTaskSetUp

end

end Lettuce
