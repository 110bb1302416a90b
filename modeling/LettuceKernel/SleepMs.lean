import LettuceKernel.Board
import LettuceKernel.Interrupts
import LettuceKernel.PosixClient
import LettuceKernel.SleepQueue
/-!
# `sleep_ms` on the board (`runtime/rust/src/posix.rs:87`)

| here | there |
| --- | --- |
| `sleepMsSec`, `sleepMsNsec`, `sleepMsFrame` | the request of `sleep_ms`, and its call of `lettuce_nanosleep` (posix.c:151) |
| `timerInterrupts`    | the interrupts that `lettuce_timer_irq_handler` counts |
| `LeavesAsleep`       | what nobody does to the sleeper meanwhile |

The call switches to another task, if there is one to run. From then on every step of the board leaves the scheduler
alone or is a call of its interface at the current tick count (`boardStep_scheduler`), so the sleeper stays off the
processor until enough timer interrupts have come.
-/

namespace Lettuce

open Runs

/-- `tv_sec` and `tv_nsec`. -/
def sleepMsSec (ms : BitVec 64) : BitVec 64 := ms / 1000
def sleepMsNsec (ms : BitVec 64) : BitVec 64 := ms % 1000 * 1000000

/-- `lettuce_nanosleep(&req, null)`. -/
def sleepMsFrame (regs : TrapFrame) (req : Reg) : TrapFrame := syscallFrame regs 6 [req, 0]

/-- The handler finds the request at `req`. -/
structure HoldsRequest (v : Services) (req : Reg) (ms : BitVec 64) : Prop where
  accepted : Accepted req
  sec : readWord v.memory req = sleepMsSec ms
  nsec : readWord v.memory (req + nsecOffset) = sleepMsNsec ms

/-- 1 for a timer interrupt. -/
def Machine.timerInterrupt (m : Machine) : MachineEvent → Nat
  | .irqEl1 =>
    match m.exec with
    | .kernel _ => 1
    | _ => 0
  | .trap .timer _ => if m.inEl0 then 1 else 0
  | _ => 0

def Board.timerInterrupt (b : Board) : BoardEvent → Nat
  | .machine e => b.machine.timerInterrupt e
  | _ => 0

def timerInterrupts : List (Board × BoardEvent) → Nat
  | [] => 0
  | p :: h => p.1.timerInterrupt p.2 + timerInterrupts h

def LeavesTask (c : Slot) (s : Scheduler) : SchedEvent → Prop
  | .init => False
  | .terminate id => taskGet s.tasks id ≠ some c
  | .adopt task => task ≠ c
  | _ => True

/-- The task is neither ended nor adopted, and the scheduler and the timer are not started afresh. -/
def LeavesAsleep (c : Slot) (b : Board) : BoardEvent → Prop
  | .machine .timerInit => False
  | .machine (.sched e) => LeavesTask c b.machine.sched e
  | _ => True

/-! ## The scheduler in a step of the board -/

section
variable {arch : Arch} {m : Machine} {b : Board} {frame : TrapFrame}

/-- The scheduler in a step that leads from `m` to `m'`. -/
inductive SchedulerStep (e : BoardEvent) (m m' : Machine) : Prop
  | same (h : m'.sched = m.sched)
  | called (se : SchedEvent) (he : e = .machine (.sched se)) (hquiet : se.scheduling = none) (h : m'.sched = schedStep m.sched se)
  | scheduled (se : SchedEvent) (regs : Option TrapFrame) (htime : se.scheduling = some (m'.timerTicks, regs))
      (h : m'.sched = schedStep m.sched se)

theorem trapStep_scheduler (t : Trap) (frame : TrapFrame) :
    SchedulerStep (.machine (.trap t frame)) m (arch.trapStep m t frame) := by
  cases t with
  | svcReturn =>
    refine .same ?_
    simp only [Arch.trapStep]
    cases hstack : m.stack with
    | nil => rw [svcReturn_nil arch hstack]
    | cons f rest => rw [svcReturn_cons arch hstack]
  | svcCall kind =>
    refine .same ?_
    simp only [Arch.trapStep]
    rcases svcCall_cases arch m kind frame with ⟨-, status, heq⟩ | ⟨-, r, -, -, heq⟩
    · rw [heq]
    · rw [heq]
  | svcYield =>
    refine .scheduled (.yield m.timerTicks (some frame)) (some frame) ?_ scheduled_sched
    rw [trapStep_timerTicks (by decide)]
    rfl
  | timer =>
    by_cases hrun : (m.sched.active && decide (m.preemptDisableCount = 0)) = true
    · refine .scheduled (.tick (m.timerTicks + 1) (some frame)) (some frame) ?_ ?_
      · rw [Arch.trapStep, irqLowerEl_timerTicks]
        rfl
      · simp only [Arch.trapStep, Arch.irqLowerEl, hrun, if_true, scheduled_sched]
        rfl
    · refine .same ?_
      simp only [Arch.trapStep, Arch.irqLowerEl, hrun, if_false, Bool.false_eq_true]
  | dataAbort =>
    refine .same ?_
    simp only [Arch.trapStep, Arch.dataAbort]
    split <;> rfl
  | sysregTrap =>
    refine .same ?_
    simp only [Arch.trapStep, Arch.sysregTrap]
    split <;> rfl
  | fatal => exact .same rfl

theorem machineStep_scheduler (e : MachineEvent) : SchedulerStep (.machine e) m (arch.machineStep m e) := by
  unfold Arch.machineStep
  split
  · cases e with
    | sched se =>
      simp only [Arch.kernelStep]
      split
      · exact .same rfl
      · next hquiet => exact .called se rfl (Option.not_isSome_iff_eq_none.1 hquiet) rfl
    | preemptEnable =>
      refine .same ?_
      simp only [Arch.kernelStep]
      split <;> rfl
    | _ => exact .same rfl
  · split
    · exact trapStep_scheduler _ _
    · exact .same rfl
  · exact .same rfl

theorem setResult_timerTicks (value : Reg) : (m.setResult value).timerTicks = m.timerTicks := by
  unfold Machine.setResult
  split <;> rfl

/-- A request that is accepted is a sleep at the current tick. -/
theorem svcNanosleep_scheduler {v : Services} (h : AcceptedSleep v frame) :
    (arch.svcSyscall m v frame).1.sched = schedStep m.sched (sleepEvent m v frame) ∧
      (arch.svcSyscall m v frame).1.timerTicks = m.timerTicks := by
  obtain ⟨-, heq⟩ := (svcSyscall_cases arch m v frame).resolve_right fun hnot => hnot.1 h
  rw [heq]
  constructor
  · simp only [Arch.svcNanosleep, setResult_sched, scheduled_sched, sysNanosleep_eq h.2.1 h.2.2]
    rfl
  · simp only [Arch.svcNanosleep, setResult_timerTicks, scheduled_timerTicks]

theorem svcSyscall_scheduler (e : BoardEvent) (v : Services) (frame : TrapFrame) :
    SchedulerStep e m (arch.svcSyscall m v frame).1 := by
  rcases svcSyscall_cases arch m v frame with ⟨hsleep, -⟩ | ⟨-, value, heq⟩
  · obtain ⟨hsched, hticks⟩ := @svcNanosleep_scheduler arch m frame v hsleep
    refine .scheduled (sleepEvent m v frame) (some frame) ?_ hsched
    rw [hticks]
    rfl
  · exact .same (by rw [heq])

/-- **Every step of the board** leaves the scheduler alone or calls it, at the tick count it leaves behind if it schedules. -/
theorem boardStep_scheduler (arch : Arch) (b : Board) (e : BoardEvent) : SchedulerStep e b.machine (boardStep arch b e).machine := by
  cases e with
  | machine e => exact machineStep_scheduler e
  | syscall frame counter device =>
    simp only [boardStep]
    split
    · simp only [Board.syscall]
      split
      · exact svcSyscall_scheduler _ _ frame
      · exact .same rfl
    · exact .same rfl
  | store va value =>
    refine .same ?_
    simp only [boardStep]
    split
    · split <;> rfl
    · rfl
  | invalidateDomain domain =>
    refine .same ?_
    simp only [boardStep]
    split <;> rfl
  | _ => exact .same rfl

theorem machineStep_ticks {e : MachineEvent} (he : e ≠ .timerInit) :
    (arch.machineStep m e).timerTicks = m.timerTicks + BitVec.ofNat 64 (m.timerInterrupt e) := by
  have hzero : m.timerTicks = m.timerTicks + BitVec.ofNat 64 0 := (BitVec.add_zero _).symm
  cases hexec : m.exec with
  | kernel code =>
    have hel0 : m.inEl0 = false := by simp only [Machine.inEl0, hexec]
    simp only [Arch.machineStep, hexec]
    cases e with
    | irqEl1 =>
      simp only [Machine.timerInterrupt, hexec]
      rfl
    | timerInit => exact absurd rfl he
    | sched se =>
      simp only [Arch.kernelStep]
      split <;> exact hzero
    | preemptEnable =>
      simp only [Arch.kernelStep]
      split <;> exact hzero
    | trap t frame =>
      cases t with
      | timer => simp only [Machine.timerInterrupt, hel0, Bool.false_eq_true, if_false, Arch.kernelStep, ← hzero]
      | _ => exact hzero
    | _ => exact hzero
  | el0 regs =>
    have hel0 : m.inEl0 = true := by simp only [Machine.inEl0, hexec]
    cases e with
    | trap t frame =>
      rw [machineStep_trap arch hel0]
      by_cases ht : t = .timer
      · subst ht
        simp only [Machine.timerInterrupt, hel0, if_true]
        exact irqLowerEl_timerTicks m frame
      · rw [trapStep_timerTicks ht]
        cases t with
        | timer => exact absurd rfl ht
        | _ => exact hzero
    | irqEl1 => simp only [Arch.machineStep, hexec, Machine.timerInterrupt, ← hzero]
    | _ =>
      simp only [Arch.machineStep, hexec]
      exact hzero
  | halted =>
    have hel0 : m.inEl0 = false := by simp only [Machine.inEl0, hexec]
    simp only [Arch.machineStep, hexec]
    cases e with
    | irqEl1 => simp only [Machine.timerInterrupt, hexec, ← hzero]
    | trap t frame =>
      cases t with
      | timer => simp only [Machine.timerInterrupt, hel0, Bool.false_eq_true, if_false, ← hzero]
      | _ => exact hzero
    | _ => exact hzero

theorem svcSyscall_ticks (v : Services) (frame : TrapFrame) : (arch.svcSyscall m v frame).1.timerTicks = m.timerTicks := by
  rcases svcSyscall_cases arch m v frame with ⟨hsleep, -⟩ | ⟨-, value, heq⟩
  · exact (svcNanosleep_scheduler hsleep).2
  · rw [heq]

/-- The tick count follows the timer interrupts. -/
theorem boardStep_ticks {c : Slot} {e : BoardEvent} (hok : LeavesAsleep c b e) :
    (boardStep arch b e).machine.timerTicks = b.machine.timerTicks + BitVec.ofNat 64 (b.timerInterrupt e) := by
  have hzero : b.machine.timerTicks = b.machine.timerTicks + BitVec.ofNat 64 0 := (BitVec.add_zero _).symm
  cases e with
  | machine e =>
    refine machineStep_ticks ?_
    rintro rfl
    exact hok
  | syscall frame counter device =>
    refine Eq.trans ?_ hzero
    simp only [boardStep]
    split
    · simp only [Board.syscall]
      split
      · exact svcSyscall_ticks _ frame
      · rfl
    · rfl
  | store va value =>
    refine Eq.trans ?_ hzero
    simp only [boardStep]
    split
    · split <;> rfl
    · rfl
  | invalidateDomain domain =>
    refine Eq.trans ?_ hzero
    simp only [boardStep]
    split <;> rfl
  | _ => exact hzero

end

/-! ## The sleeper -/

section
variable {s : Scheduler} {c : Slot} {deadline : Nat}

/-- Asleep until `deadline`, and off the processor. -/
structure OffUntil (c : Slot) (deadline : Nat) (s : Scheduler) : Prop where
  asleep : (s.tasks c).asleep = some deadline
  off : s.current ≠ some c

theorem OffUntil.state (h : OffUntil c deadline s) : (s.tasks c).state = .sleeping ∧ (s.tasks c).sleepDeadlineTicks = deadline := by
  have hasleep := h.asleep
  unfold Task.asleep at hasleep
  split at hasleep
  · next hsleeping => exact ⟨hsleeping, Option.some.inj hasleep⟩
  · cases hasleep

theorem expire_early {generation : BitVec 16} {now : Nat} (h : now < deadline) :
    expire generation now (some deadline) = some deadline := by
  rw [expire, if_neg fun hdue => Nat.not_le.2 h hdue.2.2]

/-- Before the deadline `do_schedule` hands the processor to somebody else. -/
theorem doSchedule_off {now : Nat} (hstate : (s.tasks c).state = .sleeping) (hearly : now < (s.tasks c).sleepDeadlineTicks)
    (hoff : s.current ≠ some c) (frame : Option TrapFrame) (pre : Bool) : (doSchedule s now frame pre).sched.current ≠ some c := by
  rcases doSchedule_spec s now frame pre with hst | ⟨tf, j, -, hsw⟩
  · rwa [hst.current]
  · rw [hsw.current]
    rintro heq
    obtain rfl := Option.some.inj heq
    rcases hsw.runnable.2 with hready | ⟨-, hdue⟩
    · rw [hstate] at hready
      cases hready
    · exact Nat.not_le.2 hearly hdue

/-- What yielding or sleeping writes into the current task does not matter. -/
theorem doSchedule_off_setTask {now : Nat} {j : Slot} (hj : s.current = some j) (hstate : (s.tasks c).state = .sleeping)
    (hearly : now < (s.tasks c).sleepDeadlineTicks) (hoff : s.current ≠ some c) (t : Task) (frame : Option TrapFrame) (pre : Bool) :
    (doSchedule (s.setTask j t) now frame pre).sched.current ≠ some c := by
  have hne : c ≠ j := fun heq => hoff (heq ▸ hj)
  have hsame : (s.setTask j t).tasks c = s.tasks c := Function.update_of_ne hne _ _
  rw [← hsame] at hstate hearly
  exact doSchedule_off hstate hearly hoff frame pre

/-- A call that does not schedule. -/
theorem OffUntil.quiet (h : OffUntil c deadline s) {e : SchedEvent} (hquiet : e.scheduling = none) (hleaves : LeavesTask c s e) :
    OffUntil c deadline (schedStep s e) := by
  have hentry : queueStep s e c (some deadline) = some deadline ∧ (schedStep s e).current ≠ some c := by
    cases e with
    | init => exact absurd hleaves id
    | terminate id =>
      refine ⟨if_neg hleaves, ?_⟩
      rcases terminate_cases s id with heq | ⟨i, -, heq⟩
      · simp only [schedStep, schedCall, heq]
        exact h.off
      · simp only [schedStep, schedCall, heq]
        split
        · exact Option.some_ne_none c |>.symm
        · exact h.off
    | adopt task => exact ⟨if_neg hleaves, fun heq => hleaves (Option.some.inj heq)⟩
    | setPolicy policy =>
      refine ⟨rfl, ?_⟩
      simp only [schedStep, schedCall, setPolicy, policyInit]
      split <;> exact h.off
    | tick now frame => cases hquiet
    | yield now frame => cases hquiet
    | sleep ticks now frame => cases hquiet
    | _ => exact ⟨rfl, h.off⟩
  refine ⟨?_, hentry.2⟩
  rw [schedStep_asleep, h.asleep, hentry.1]

/-- A call that schedules before the deadline. -/
theorem OffUntil.early (h : OffUntil c deadline s) {e : SchedEvent} {now : BitVec 64} {frame : Option TrapFrame}
    (htime : e.scheduling = some (now, frame)) (hearly : now.toNat < deadline) : OffUntil c deadline (schedStep s e) := by
  obtain ⟨hstate, hdeadline⟩ := h.state
  have hbefore : now.toNat < (s.tasks c).sleepDeadlineTicks := by rwa [hdeadline]
  have hentry : queueStep s e c (some deadline) = some deadline ∧ (schedStep s e).current ≠ some c := by
    cases e with
    | tick now frame =>
      cases htime
      refine ⟨?_, doSchedule_off hstate hbefore h.off frame true⟩
      simp only [queueStep, expire_early hearly, ite_self]
    | yield now frame =>
      cases htime
      refine ⟨by simp only [queueStep, expire_early hearly, ite_self], ?_⟩
      simp only [schedStep, schedCall, schedulerYield]
      cases hcur : s.current with
      | none => exact fun heq => h.off heq
      | some j =>
        exact doSchedule_off_setTask hcur hstate hbefore h.off _ frame false
    | sleep ticks now frame =>
      cases htime
      refine ⟨by simp only [queueStep, if_neg h.off, expire_early hearly, ite_self], ?_⟩
      simp only [schedStep, schedCall, schedulerSleepCurrent]
      cases hcur : s.current with
      | none => exact fun heq => h.off heq
      | some j =>
        exact doSchedule_off_setTask hcur hstate hbefore h.off _ frame false
    | _ => cases htime
  refine ⟨?_, hentry.2⟩
  rw [schedStep_asleep, h.asleep, hentry.1]

end

/-! ## The request -/

/-- The cycles of `ms` milliseconds. -/
def msCycles (freq ms : Nat) : Nat := ms * freq / 1000

theorem requestedCycles_ms (freq ms : Nat) : requestedCycles freq (ms / 1000) (ms % 1000 * 1000000) = msCycles freq ms := by
  have hsplit := split_floor ms freq (by decide : 0 < 1000)
  have hscale : ms % 1000 * 1000000 * freq / 1000000000 = ms % 1000 * freq / 1000 := by
    have hfactor : ms % 1000 * 1000000 * freq = ms % 1000 * freq * 1000000 :=
      Nat.mul_right_comm _ _ _
    rw [hfactor, show 1000000000 = 1000 * 1000000 from rfl, Nat.mul_div_mul_right _ _ (by decide)]
  rw [requestedCycles, hscale, hsplit, msCycles]

theorem sleepMsSec_toNat (ms : BitVec 64) : (sleepMsSec ms).toNat = ms.toNat / 1000 := BitVec.toNat_udiv

theorem sleepMsNsec_toNat (ms : BitVec 64) : (sleepMsNsec ms).toNat = ms.toNat % 1000 * 1000000 := by
  have hlt : ms.toNat % 1000 < 1000 := Nat.mod_lt _ (by decide)
  have hrest : (ms % 1000).toNat = ms.toNat % 1000 := BitVec.toNat_umod
  have hmillion : (1000000 : BitVec 64).toNat = 1000000 := rfl
  rw [sleepMsNsec, BitVec.toNat_mul, hrest, hmillion, Nat.mod_eq_of_lt]
  omega

/-- The nanoseconds are in range, whatever `ms`. -/
theorem sleepMsNsec_valid (ms : BitVec 64) : ValidNsec (sleepMsNsec ms) := by
  have hlt : ms.toNat % 1000 < 1000 := Nat.mod_lt _ (by decide)
  have hnat := sleepMsNsec_toNat ms
  have hint : (sleepMsNsec ms).toInt = (sleepMsNsec ms).toNat := BitVec.toInt_eq_toNat_of_lt (by omega)
  unfold ValidNsec
  rw [hint, hnat]
  omega

/-- With a 32-bit frequency nothing wraps. -/
theorem sleepTicks_ms {freq ms : BitVec 64} (hfreq : freq.toNat < 2 ^ 32) (hcycles : msCycles freq.toNat ms.toNat < 2 ^ 64) :
    (sleepTicks freq (sleepMsSec ms) (sleepMsNsec ms)).toNat = msCycles freq.toNat ms.toNat := by
  have hrequested : requestedCycles freq.toNat (sleepMsSec ms).toNat (sleepMsNsec ms).toNat = msCycles freq.toNat ms.toNat := by
    rw [sleepMsSec_toNat, sleepMsNsec_toNat, requestedCycles_ms]
  rw [sleepTicks_toNat (sleepMsNsec_valid ms).toNat_lt hfreq (by rwa [hrequested]), hrequested]

/-! ## Runs -/

section
variable {arch : Arch} {b : Board} {c : Slot} {req counter : Reg} {device : ByteMemory.Memory 64} {ms : BitVec 64}

theorem acceptedSleep_ms {v : Services} (hv : HoldsRequest v req ms) (regs : TrapFrame) : AcceptedSleep v (sleepMsFrame regs req) := by
  have harg : (sleepMsFrame regs req).arg0 = req := rfl
  refine ⟨rfl, by rw [harg]; exact hv.accepted, ?_⟩
  rw [harg, hv.nsec]
  exact sleepMsNsec_valid ms

/-- The sleeper right after the call, when another task has taken over. -/
theorem sleep_ms_starts {m : Machine} {v : Services} (hv : HoldsRequest v req ms) (regs : TrapFrame) (hc : m.sched.current = some c)
    (hfreq : v.frequency.toNat < 2 ^ 32) (hfit : m.timerTicks.toNat + msCycles v.frequency.toNat ms.toNat < 2 ^ 64)
    (hpos : 0 < msCycles v.frequency.toNat ms.toNat)
    (hother : (arch.svcSyscall m v (sleepMsFrame regs req)).1.sched.current ≠ some c) :
    OffUntil c (m.timerTicks.toNat + msCycles v.frequency.toNat ms.toNat) (arch.svcSyscall m v (sleepMsFrame regs req)).1.sched := by
  refine ⟨?_, hother⟩
  have harg : (sleepMsFrame regs req).arg0 = req := rfl
  have hticks : (sleepTicks v.frequency (sleepMsSec ms) (sleepMsNsec ms)).toNat = msCycles v.frequency.toNat ms.toNat :=
    sleepTicks_ms hfreq (by omega)
  rw [(svcNanosleep_scheduler (acceptedSleep_ms hv regs)).1, schedStep_asleep, sleepEvent, harg, hv.sec, hv.nsec, queueStep, hticks,
    if_pos hc, Nat.mod_eq_of_lt hfit, expire_early (by omega), ite_self]

/-- The current task `c` calls `sleep_ms`: its request can be read, and its deadline does not wrap. -/
structure CallsSleepMs (b : Board) (counter : BitVec 64) (device : ByteMemory.Memory 64) (req : Reg) (ms : BitVec 64)
    (regs : TrapFrame) (c : Slot) : Prop where
  el0 : b.machine.inEl0 = true
  current : b.machine.sched.current = some c
  request : HoldsRequest (b.services counter device) req ms
  readable : (userAccesses (b.services counter device) (sleepMsFrame regs req)).all b.completes = true
  frequency : b.frequency.toNat < 2 ^ 32
  fits : b.machine.timerTicks.toNat + msCycles b.frequency.toNat ms.toNat < 2 ^ 64

theorem CallsSleepMs.machine {regs : TrapFrame} (hcall : CallsSleepMs b counter device req ms regs c) :
    (boardStep arch b (.syscall (sleepMsFrame regs req) counter device)).machine =
      (arch.svcSyscall b.machine (b.services counter device) (sleepMsFrame regs req)).1 := by
  simp only [boardStep, hcall.el0, if_true, Board.syscall, hcall.readable]

/-- Ticks counted, and the sleeper off the processor while they are too few. -/
theorem CallsSleepMs.run {regs : TrapFrame} (hcall : CallsSleepMs b counter device req ms regs c)
    (hother : (boardStep arch b (.syscall (sleepMsFrame regs req) counter device)).machine.sched.current ≠ some c)
    {h : List (Board × BoardEvent)} {b' : Board}
    (r : Run (LeavesAsleep c) (boardStep arch) (boardStep arch b (.syscall (sleepMsFrame regs req) counter device)) h b') :
    b'.machine.timerTicks = b.machine.timerTicks + BitVec.ofNat 64 (timerInterrupts h) ∧
      (timerInterrupts h < msCycles b.frequency.toNat ms.toNat →
        OffUntil c (b.machine.timerTicks.toNat + msCycles b.frequency.toNat ms.toNat) b'.machine.sched) := by
  refine r.historyInvariant (I := fun h b' => b'.machine.timerTicks = b.machine.timerTicks + BitVec.ofNat 64 (timerInterrupts h) ∧
    (timerInterrupts h < msCycles b.frequency.toNat ms.toNat →
      OffUntil c (b.machine.timerTicks.toNat + msCycles b.frequency.toNat ms.toNat) b'.machine.sched)) ?_ ?_
  · rw [hcall.machine] at hother ⊢
    exact ⟨(svcSyscall_ticks _ _).trans (BitVec.add_zero _).symm, fun hpos =>
      sleep_ms_starts hcall.request regs hcall.current hcall.frequency hcall.fits hpos hother⟩
  · intro h b₁ e hok ⟨hticks, hoff⟩
    have hcount : timerInterrupts ((b₁, e) :: h) = b₁.timerInterrupt e + timerInterrupts h := rfl
    have hafter : (boardStep arch b₁ e).machine.timerTicks =
        b.machine.timerTicks + BitVec.ofNat 64 (timerInterrupts ((b₁, e) :: h)) := by
      rw [boardStep_ticks hok, hticks, hcount, Nat.add_comm, BitVec.ofNat_add, BitVec.add_assoc]
    refine ⟨hafter, fun hfew => ?_⟩
    have hoff := hoff (by omega)
    have hfits := hcall.fits
    have hearly : (boardStep arch b₁ e).machine.timerTicks.toNat <
        b.machine.timerTicks.toNat + msCycles b.frequency.toNat ms.toNat := by
      rw [hafter, BitVec.toNat_add, BitVec.toNat_ofNat]
      omega
    cases boardStep_scheduler arch b₁ e with
    | same hsched => rwa [hsched]
    | called se he hquiet hsched =>
      subst he
      rw [hsched]
      exact hoff.quiet hquiet hok
    | scheduled se frame htime hsched =>
      rw [hsched]
      exact hoff.early htime hearly

/-- A timer interrupt at or after the deadline ends the sleep. -/
theorem timer_wakes {now deadline : Nat} {frame : TrapFrame} (hel0 : b.machine.inEl0 = true) (hactive : b.machine.sched.active = true)
    (hpreempt : b.machine.preemptDisableCount = 0)
    (hgeneration : 1 ≤ (b.machine.sched.tasks c).generation.toNat ∧ (b.machine.sched.tasks c).generation.toNat ≤ 10)
    (hasleep : (b.machine.sched.tasks c).asleep = some deadline) (hnow : (b.machine.timerTicks + 1).toNat = now) (hdue : deadline ≤ now) :
    ((boardStep arch b (.machine (.trap .timer frame))).machine.sched.tasks c).state ≠ .sleeping := by
  have hsched : (boardStep arch b (.machine (.trap .timer frame))).machine.sched =
      schedStep b.machine.sched (.tick (b.machine.timerTicks + 1) (some frame)) := by
    simp only [boardStep, machineStep_trap arch hel0, Arch.trapStep, Arch.irqLowerEl, hactive, hpreempt, decide_true, Bool.and_self,
      if_true, scheduled_sched]
    rfl
  have hwoken : ((boardStep arch b (.machine (.trap .timer frame))).machine.sched.tasks c).asleep = none := by
    rw [hsched, schedStep_asleep, hasleep]
    simp only [queueStep, hactive, Option.isSome_some, Bool.and_self, if_true, hnow]
    exact if_pos ⟨hgeneration.1, hgeneration.2, hdue⟩
  intro hsleeping
  rw [Task.asleep, if_pos hsleeping] at hwoken
  cases hwoken

/-- **`sleep_ms` does not come back early**: once its call has handed the processor to another task, whatever the board does
from there, the caller is on the processor again only after as many timer interrupts as the counter makes cycles in `ms`
milliseconds; with fewer it is asleep. A timer interrupt that reaches the scheduler after that wakes it. -/
theorem sleep_ms_lasts (arch : Arch) {b : Board} {counter : BitVec 64} {device : ByteMemory.Memory 64} {req : Reg} {ms : BitVec 64}
    {regs : TrapFrame} {c : Slot} (hcall : CallsSleepMs b counter device req ms regs c)
    (hother : (boardStep arch b (.syscall (sleepMsFrame regs req) counter device)).machine.sched.current ≠ some c)
    {h : List (Board × BoardEvent)} {b' : Board}
    (r : Run (LeavesAsleep c) (boardStep arch) (boardStep arch b (.syscall (sleepMsFrame regs req) counter device)) h b') :
    (b'.machine.sched.current = some c → msCycles b.frequency.toNat ms.toNat ≤ timerInterrupts h) ∧
    (timerInterrupts h < msCycles b.frequency.toNat ms.toNat → (b'.machine.sched.tasks c).state = .sleeping) ∧
    ∀ frame, b'.machine.inEl0 = true → b'.machine.sched.active = true → b'.machine.preemptDisableCount = 0 →
      1 ≤ (b'.machine.sched.tasks c).generation.toNat ∧ (b'.machine.sched.tasks c).generation.toNat ≤ 10 →
      (b'.machine.sched.tasks c).asleep = some (b.machine.timerTicks.toNat + msCycles b.frequency.toNat ms.toNat) →
      msCycles b.frequency.toNat ms.toNat ≤ timerInterrupts h + 1 → b.machine.timerTicks.toNat + timerInterrupts h + 1 < 2 ^ 64 →
      ((boardStep arch b' (.machine (.trap .timer frame))).machine.sched.tasks c).state ≠ .sleeping := by
  obtain ⟨hticks, hoff⟩ := hcall.run hother r
  refine ⟨fun hcur => ?_, fun hfew => (hoff hfew).state.1, fun frame hel0 hactive hpreempt hgeneration hasleep hmany hwrap => ?_⟩
  · by_contra hfew
    exact (hoff (Nat.lt_of_not_le hfew)).off hcur
  · have hnow : (b'.machine.timerTicks + 1).toNat = b.machine.timerTicks.toNat + timerInterrupts h + 1 := by
      rw [hticks, BitVec.toNat_add, BitVec.toNat_add, BitVec.toNat_ofNat]
      have hone : (1 : BitVec 64).toNat = 1 := rfl
      omega
    exact timer_wakes hel0 hactive hpreempt hgeneration hasleep hnow (by omega)

end

/-- Two tasks (main.c:767-793); the first one's request, one second, is in the private page of its domain, which is in the TLB. -/
def sleeperBoard : Board where
  machine := twoTaskRun.2
  memory := Function.update (fun _ => 0) 0x41000010 1
  tlb := [⟨1, 0x41000010, ⟨0x41000000 ||| dataAttributes ||| 0x403, 0, 12⟩⟩]
  console := []
  fds := fdTableInit
  frequency := 62500000

def sleeperCall : BoardEvent := .syscall (sleepMsFrame callDisplay 0x41000010) 0 fun _ => 0

/-- After one timer interrupt of 62500000 it still sleeps. -/
theorem sleep_ms_lasts_second :
    ((boardStep boardArch (boardStep boardArch sleeperBoard sleeperCall) (.machine (.trap .timer callDisplay))).machine.sched.tasks
      firstSlot).state = .sleeping := by
  have hcall : CallsSleepMs sleeperBoard 0 (fun _ => 0) 0x41000010 1000 callDisplay firstSlot :=
    ⟨by decide +kernel, by decide +kernel, ⟨by decide +kernel, by decide +kernel, by decide +kernel⟩, by decide +kernel,
      by decide +kernel, by decide +kernel⟩
  have hother : (boardStep boardArch sleeperBoard sleeperCall).machine.sched.current ≠ some firstSlot := by decide +kernel
  have r : Run (LeavesAsleep firstSlot) (boardStep boardArch) (boardStep boardArch sleeperBoard sleeperCall)
      [(boardStep boardArch sleeperBoard sleeperCall, .machine (.trap .timer callDisplay))]
      (boardStep boardArch (boardStep boardArch sleeperBoard sleeperCall) (.machine (.trap .timer callDisplay))) :=
    Run.start.next _ trivial
  have hone : ∀ b : Board, timerInterrupts [(b, .machine (.trap .timer callDisplay))] ≤ 1 := by
    intro b
    simp only [timerInterrupts, Board.timerInterrupt, Machine.timerInterrupt]
    split <;> decide
  refine (sleep_ms_lasts boardArch hcall hother r).2.1 (Nat.lt_of_le_of_lt (hone _) ?_)
  decide

end Lettuce
