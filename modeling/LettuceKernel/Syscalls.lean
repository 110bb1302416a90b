import LettuceKernel.Cpu
import LettuceKernel.PosixTime
import LettuceKernel.SchedulerDecision
/-!
# System calls (`kernel/arch/arm64/cpu.c:441-469`)

| here | there |
| --- | --- |
| `Syscall`, `syscallOf` | `LETTUCE_SYS_*` (arch.h:70-75) and the `switch` on `x8` |
| `quickCall`            | the cases that only compute a result (cpu.c:446-460) |
| `Arch.svcNanosleep`    | `LETTUCE_SYS_NANOSLEEP` (:461) |
| `Arch.svcSyscall`      | the whole branch, with `-ENOSYS` as the default (:464) |

SVC #5 takes the number of the call from `x8` and its arguments from `x0`..`x2`, and stores the result into `x0` of the
trap frame. The frame is the same memory whoever runs: `nanosleep` calls the scheduler, and when that
switches tasks, the frame holds the registers of the *next* task by the time the result is stored. The
next task then finds the sleeper's 0 in its `x0` (`syscall_registers_iff`). A yield stores no result and is
right (cpu.c:436-440).
-/

namespace Lettuce

open Runs

/-- `LETTUCE_SYS_*` (arch.h:70-75). -/
inductive Syscall where
  | write | read | close | getpid | clockGettime | nanosleep
deriving DecidableEq, Repr

/-- `none` is the default branch. -/
def syscallOf (sysNo : Reg) : Option Syscall :=
  if sysNo = 1 then some .write
  else if sysNo = 2 then some .read
  else if sysNo = 3 then some .close
  else if sysNo = 4 then some .getpid
  else if sysNo = 5 then some .clockGettime
  else if sysNo = 6 then some .nanosleep
  else none

/-- `frame->x[0] = value`, on the frame as it is now. -/
def Machine.setResult (m : Machine) (value : Reg) : Machine :=
  match m.exec with
  | .el0 frame => { m with exec := .el0 (frame.setX0 value) }
  | _ => m

/-- The calls that do not reach the scheduler. -/
def quickCall (s : Scheduler) (v : Services) (frame : TrapFrame) : Syscall → Option (Services × Reg)
  | .write => some (sysWrite v (frame.arg0.setWidth 32) frame.arg1 frame.arg2)
  | .read => some (sysRead v (frame.arg0.setWidth 32) frame.arg1 frame.arg2)
  | .close => some (v, sysClose v (frame.arg0.setWidth 32))
  | .getpid => some (v, sysGetpid s)
  | .clockGettime => some (sysClockGettime v (frame.arg0.setWidth 32) frame.arg1)
  | .nanosleep => none

namespace Arch

variable (arch : Arch)

def svcNanosleep (m : Machine) (v : Services) (frame : TrapFrame) : Machine :=
  let r := sysNanosleep v m.sched m.timerTicks frame.arg0 frame.arg1 (some frame)
  (arch.scheduled m frame r.1).setResult r.2

def svcSyscall (m : Machine) (v : Services) (frame : TrapFrame) : Machine × Services :=
  match syscallOf frame.sysNo with
  | none => ({ m with exec := .el0 (frame.setX0 Errno.enosys.result) }, v)
  | some call =>
    match quickCall m.sched v frame call with
    | some r => ({ m with exec := .el0 (frame.setX0 r.2) }, r.1)
    | none => (arch.svcNanosleep m v frame, v)

end Arch

/-- The handler leaves the registers of all other tasks alone: a new current task gets the ones saved for it, the
old one keeps its own but for a result in `x0`, and no saved registers of another task change. -/
structure Machine.LeavesRegisters (m : Machine) (frame : TrapFrame) (m' : Machine) : Prop where
  switched : ∀ j, m'.sched.current = some j → m.sched.current ≠ some j → m'.exec = .el0 (m.sched.tasks j).context.restore
  same : m'.sched.current = m.sched.current → ∃ value, m'.exec = .el0 (frame.setX0 value)
  saved : ∀ i, m.sched.current ≠ some i → (m'.sched.tasks i).context = (m.sched.tasks i).context

/-- The sleep that a `nanosleep` request starts. -/
def sleepEvent (m : Machine) (v : Services) (frame : TrapFrame) : SchedEvent :=
  .sleep (sleepTicks v.frequency (readWord v.memory frame.arg0) (readWord v.memory (frame.arg0 + nsecOffset))) m.timerTicks (some frame)

/-- The call is a `nanosleep` whose request is accepted. -/
def AcceptedSleep (v : Services) (frame : TrapFrame) : Prop :=
  syscallOf frame.sysNo = some .nanosleep ∧ Accepted frame.arg0 ∧ ValidNsec (readWord v.memory (frame.arg0 + nsecOffset))

/-- The policy's answer to that sleep is task `j`, another one. -/
def SleepsInFavourOf (m : Machine) (v : Services) (frame : TrapFrame) (j : Slot) : Prop :=
  AcceptedSleep v frame ∧ selected m.sched (sleepEvent m v frame) = some j ∧ m.sched.current ≠ some j

/-! ## Yielding and the quick calls -/

section
variable {arch : Arch} {m : Machine} {frame : TrapFrame} {r : ScheduleResult}

theorem setX0_self (frame : TrapFrame) : frame.setX0 (frame.x 0) = frame := by
  cases frame
  simp [TrapFrame.setX0]

theorem setX0_eq_self_iff (frame : TrapFrame) (value : Reg) : frame.setX0 value = frame ↔ frame.x 0 = value := by
  constructor
  · intro h
    rw [← h]
    simp [TrapFrame.setX0]
  · rintro rfl
    exact setX0_self frame

@[simp] theorem scheduled_sched : (arch.scheduled m frame r).sched = r.sched := by
  unfold Arch.scheduled
  split <;> rfl

/-- Short of the preemption limit, EL0 goes on with the frame the scheduler left. -/
theorem scheduled_exec (h : ∀ handoff, r.handoff = some handoff → handoff.resumeKernel = false) :
    (arch.scheduled m frame r).exec = .el0 (r.frame.getD frame) := by
  unfold Arch.scheduled
  split
  · rfl
  · rename_i handoff hhandoff
    simp [h handoff hhandoff]

@[simp] theorem setResult_sched (value : Reg) : (m.setResult value).sched = m.sched := by
  unfold Machine.setResult
  split <;> rfl

theorem setResult_exec (h : m.exec = .el0 frame) (value : Reg) : (m.setResult value).exec = .el0 (frame.setX0 value) := by
  unfold Machine.setResult
  rw [h]

/-- What yielding or sleeping writes into the current task does not concern the others. -/
theorem setTask_schedule_saved {s : Scheduler} {c i : Slot} (hc : s.current = some c) (hi : s.current ≠ some i) (t : Task)
    (now : Nat) (frame : TrapFrame) :
    ((doSchedule (s.setTask c t) now (some frame) false).sched.tasks i).context = (s.tasks i).context := by
  have hne : i ≠ c := by
    rintro rfl
    exact hi hc
  rw [doSchedule_context (s.setTask c t) now (some frame) false (i := i) hi]
  simp [Scheduler.setTask, hne]

/-- Handled without the scheduler. -/
theorem leavesRegisters_result (m : Machine) (frame : TrapFrame) (value : Reg) :
    m.LeavesRegisters frame { m with exec := .el0 (frame.setX0 value) } :=
  ⟨fun _ hj hne => absurd hj hne, fun _ => ⟨value, rfl⟩, fun _ _ => rfl⟩

/-- It is enough that `x0` is not the saved one. -/
theorem not_leavesRegisters {m' : Machine} {regs : TrapFrame} {j : Slot} (hcur : m'.sched.current = some j)
    (hother : m.sched.current ≠ some j) (hexec : m'.exec = .el0 regs) (hx : regs.x 0 ≠ (m.sched.tasks j).context.x 0) :
    ¬ m.LeavesRegisters frame m' := by
  intro h
  have hregs := hexec.symm.trans (h.switched j hcur hother)
  rw [Execution.el0.inj hregs] at hx
  exact hx rfl

theorem svcYield_leavesRegisters (arch : Arch) (m : Machine) (frame : TrapFrame) :
    m.LeavesRegisters frame (arch.svcYield m frame) := by
  have hsaved : ∀ i, m.sched.current ≠ some i →
      ((arch.svcYield m frame).sched.tasks i).context = (m.sched.tasks i).context := by
    intro i hi
    rw [Arch.svcYield, scheduled_sched]
    unfold schedulerYield
    cases hc : m.sched.current with
    | none => rfl
    | some c => exact setTask_schedule_saved hc hi _ _ frame
  rcases svcYield_cases arch m frame with ⟨-, hcont⟩ | ⟨-, j, hsw⟩
  · obtain ⟨sched, ticks, heq⟩ := hcont.eq
    refine ⟨fun j hj hne => absurd (hcont.current ▸ hj) hne, fun _ => ⟨frame.x 0, ?_⟩, hsaved⟩
    rw [heq, setX0_self]
  · obtain ⟨sched, ticks, heq⟩ := hsw.eq
    refine ⟨fun k hk _ => ?_, fun hsame => absurd (hsame ▸ hsw.current) hsw.other, hsaved⟩
    have hk : j = k := Option.some.inj (hsw.current.symm.trans hk)
    rw [heq, ← hk]
    rfl

end

/-! ## Sleeping -/

section
variable {arch : Arch} {m : Machine} {v : Services} {frame : TrapFrame} {c : Slot}

/-- A request that is refused before the scheduler is called, or that finds no current task. -/
theorem svcNanosleep_of_refused {value : Reg}
    (h : sysNanosleep v m.sched m.timerTicks frame.arg0 frame.arg1 (some frame) = (⟨m.sched, some frame, none⟩, value)) :
    arch.svcNanosleep m v frame = { m with exec := .el0 (frame.setX0 value) } := by
  unfold Arch.svcNanosleep
  rw [h]
  rfl

/-- What an accepted request hands to `do_schedule`. -/
def sleepSchedule (m : Machine) (v : Services) (frame : TrapFrame) (c : Slot) : ScheduleResult :=
  doSchedule (m.sched.setTask c ((m.sched.tasks c).sleepUntil m.timerTicks.toNat
    (sleepTicks v.frequency (readWord v.memory frame.arg0) (readWord v.memory (frame.arg0 + nsecOffset))).toNat))
    m.timerTicks.toNat (some frame) false

theorem svcNanosleep_of_accepted (hreq : Accepted frame.arg0)
    (hvalid : ValidNsec (readWord v.memory (frame.arg0 + nsecOffset))) (hc : m.sched.current = some c) :
    arch.svcNanosleep m v frame = (arch.scheduled m frame (sleepSchedule m v frame c)).setResult 0 := by
  unfold Arch.svcNanosleep sleepSchedule
  rw [sysNanosleep_eq hreq hvalid, schedulerSleepCurrent, hc]

theorem sleepSchedule_target (hc : m.sched.current = some c) (j : Slot) :
    (sleepSchedule m v frame c).handoff.map Handoff.next = some j ↔
      selected m.sched (sleepEvent m v frame) = some j ∧ m.sched.current ≠ some j := by
  unfold sleepSchedule
  rw [doSchedule_target]
  simp only [selected, decisionPoint, sleepEvent, hc, Option.bind_eq_some_iff, Scheduler.setTask]

/-- The task goes to sleep and stays on the processor, or the next task is restored. -/
theorem sleepSchedule_spec (v : Services) (frame : TrapFrame) (hc : m.sched.current = some c) :
    (Stays m.sched (some frame) (sleepSchedule m v frame c)) ∨
    ∃ j, m.sched.current ≠ some j ∧ (sleepSchedule m v frame c).sched.current = some j ∧
      (sleepSchedule m v frame c).frame = some (m.sched.tasks j).context.restore ∧
      (sleepSchedule m v frame c).handoff.map Handoff.next = some j ∧
      ∀ handoff, (sleepSchedule m v frame c).handoff = some handoff → handoff.resumeKernel = false := by
  unfold sleepSchedule
  rcases doSchedule_spec (m.sched.setTask c _) m.timerTicks.toNat (some frame) false with hst | ⟨tf, j, -, hsw⟩
  · exact Or.inl ⟨hst.frame, hst.handoff, hst.current, hst.active, hst.preemptCount⟩
  · right
    have hother : m.sched.current ≠ some j := hsw.other
    have hj : j ≠ c := by
      rintro rfl
      exact hother hc
    refine ⟨j, hother, hsw.current, ?_, ?_, ?_⟩
    · rw [hsw.frame]
      simp [Scheduler.setTask, hj]
    · rw [hsw.handoff]
      rfl
    · rw [hsw.handoff]
      rintro handoff ⟨⟩
      rfl

/-- An accepted request leaves the task on the processor, or restores the next task and then overwrites its `x0`. -/
theorem svcNanosleep_cases (hreq : Accepted frame.arg0) (hvalid : ValidNsec (readWord v.memory (frame.arg0 + nsecOffset))) :
    ((∀ j, selected m.sched (sleepEvent m v frame) = some j → m.sched.current = some j) ∧
      m.LeavesRegisters frame (arch.svcNanosleep m v frame)) ∨
    ∃ j, selected m.sched (sleepEvent m v frame) = some j ∧ m.sched.current ≠ some j ∧
      (arch.svcNanosleep m v frame).sched.current = some j ∧
      (arch.svcNanosleep m v frame).exec = .el0 ((m.sched.tasks j).context.restore.setX0 0) ∧
      ∀ i, m.sched.current ≠ some i → ((arch.svcNanosleep m v frame).sched.tasks i).context = (m.sched.tasks i).context := by
  cases hc : m.sched.current with
  | none =>
    left
    have hnone : sysNanosleep v m.sched m.timerTicks frame.arg0 frame.arg1 (some frame) = (⟨m.sched, some frame, none⟩, 0) := by
      rw [sysNanosleep_eq hreq hvalid, schedulerSleepCurrent, hc]
    rw [svcNanosleep_of_refused hnone]
    refine ⟨fun j hj => ?_, leavesRegisters_result m frame 0⟩
    simp [selected, decisionPoint, sleepEvent, hc] at hj
  | some c =>
    have hsaved : ∀ i, m.sched.current ≠ some i →
        ((sleepSchedule m v frame c).sched.tasks i).context = (m.sched.tasks i).context := fun i hi =>
      setTask_schedule_saved hc hi _ _ frame
    rw [svcNanosleep_of_accepted hreq hvalid hc]
    simp only [setResult_sched, scheduled_sched]
    rw [← hc]
    rcases sleepSchedule_spec v frame hc with hst | ⟨j, hother, hcurrent, hframe, htarget, hresume⟩
    · left
      have hexec : (arch.scheduled m frame (sleepSchedule m v frame c)).exec = .el0 frame := by
        rw [scheduled_exec (by simp [hst.handoff]), hst.frame]
        rfl
      refine ⟨fun j hj => ?_, fun j hj hne => ?_, fun _ => ⟨0, setResult_exec hexec 0⟩, ?_⟩
      · by_contra hne
        have hhandoff := (sleepSchedule_target hc j).2 ⟨hj, hne⟩
        rw [hst.handoff] at hhandoff
        cases hhandoff
      · simp only [setResult_sched, scheduled_sched, hst.current] at hj
        exact absurd hj hne
      · simpa only [setResult_sched, scheduled_sched] using hsaved
    · right
      have hexec : (arch.scheduled m frame (sleepSchedule m v frame c)).exec = .el0 (m.sched.tasks j).context.restore := by
        rw [scheduled_exec hresume, hframe]
        rfl
      exact ⟨j, ((sleepSchedule_target hc j).1 htarget).1, hother, hcurrent, setResult_exec hexec 0, hsaved⟩

end

/-- A refused request does not reach the scheduler. -/
theorem svcNanosleep_refused (arch : Arch) (m : Machine) (v : Services) (frame : TrapFrame)
    (h : ¬ (Accepted frame.arg0 ∧ ValidNsec (readWord v.memory (frame.arg0 + nsecOffset)))) :
    ∃ value, arch.svcNanosleep m v frame = { m with exec := .el0 (frame.setX0 value) } := by
  have hrefused : ∃ value, sysNanosleep v m.sched m.timerTicks frame.arg0 frame.arg1 (some frame) =
      (⟨m.sched, some frame, none⟩, value) := by
    unfold sysNanosleep
    by_cases hnull : frame.arg0 = 0
    · exact ⟨_, if_pos hnull⟩
    · rw [if_neg hnull]
      simp only [invalidNsec_iff]
      by_cases hvalid : ValidNsec (readWord v.memory (frame.arg0 + nsecOffset))
      · rw [if_neg (not_not_intro hvalid)]
        by_cases hsup : inSupervisorMemory frame.arg0 = true
        · exact ⟨_, if_pos hsup⟩
        · exact absurd ⟨⟨hnull, Bool.eq_false_iff.2 hsup⟩, hvalid⟩ h
      · exact ⟨_, if_pos hvalid⟩
  obtain ⟨value, hvalue⟩ := hrefused
  exact ⟨value, svcNanosleep_of_refused hvalue⟩

/-- Every other call is answered in `x0` and changes nothing else of the machine. -/
theorem svcSyscall_cases (arch : Arch) (m : Machine) (v : Services) (frame : TrapFrame) :
    (AcceptedSleep v frame ∧ (arch.svcSyscall m v frame).1 = arch.svcNanosleep m v frame) ∨
    (¬ AcceptedSleep v frame ∧ ∃ value, (arch.svcSyscall m v frame).1 = { m with exec := .el0 (frame.setX0 value) }) := by
  unfold AcceptedSleep Arch.svcSyscall
  cases hcall : syscallOf frame.sysNo with
  | none => exact Or.inr ⟨by simp, Errno.enosys.result, rfl⟩
  | some call =>
    cases call with
    | nanosleep =>
      by_cases hreq : Accepted frame.arg0 ∧ ValidNsec (readWord v.memory (frame.arg0 + nsecOffset))
      · exact Or.inl ⟨⟨rfl, hreq⟩, rfl⟩
      · exact Or.inr ⟨fun h => hreq h.2, svcNanosleep_refused arch m v frame hreq⟩
    | _ => exact Or.inr ⟨by simp, _, rfl⟩

/-- **When a system call leaves other tasks' registers alone**: for every state and every frame, SVC #5 hands a new current
task the registers saved for it, and an unchanged one its own but for `x0`, if and only if it is not a `nanosleep`
that switches to a task with something in its `x0`. A yield always does. -/
theorem syscall_registers_iff (arch : Arch) (m : Machine) (v : Services) (frame : TrapFrame) :
    (m.LeavesRegisters frame (arch.svcSyscall m v frame).1 ↔
      ∀ j, SleepsInFavourOf m v frame j → (m.sched.tasks j).context.x 0 = 0) ∧
    m.LeavesRegisters frame (arch.svcYield m frame) := by
  refine ⟨?_, svcYield_leavesRegisters arch m frame⟩
  rcases svcSyscall_cases arch m v frame with ⟨hsleep, heq⟩ | ⟨hother, value, heq⟩
  · rw [heq]
    rcases svcNanosleep_cases (m := m) hsleep.2.1 hsleep.2.2 with ⟨hnone, hleaves⟩ | ⟨j, hj, hother, hcur, hexec, hsaved⟩
    · exact iff_of_true hleaves fun j hj => absurd (hnone j hj.2.1) hj.2.2
    · constructor
      · rintro h k ⟨-, hk, -⟩
        obtain rfl : j = k := Option.some.inj (hj.symm.trans hk)
        have hframe := hexec.symm.trans (h.switched j hcur hother)
        exact (setX0_eq_self_iff _ 0).1 (Execution.el0.inj hframe)
      · intro h
        have hzero := h j ⟨hsleep, hj, hother⟩
        refine ⟨fun k hk _ => ?_, fun hsame => absurd (hsame ▸ hcur) hother, hsaved⟩
        obtain rfl : j = k := Option.some.inj (hcur.symm.trans hk)
        exact hexec.trans (congrArg Execution.el0 ((setX0_eq_self_iff _ 0).2 hzero))
  · rw [heq]
    exact iff_of_true (leavesRegisters_result m frame value) fun j hj => absurd hj.1 hother

/-- The registers of a task with `value` in `x0`. -/
def busyFrame (value elr : Reg) : TrapFrame := requestFrame value 0 0 0 elr

/-- `nanosleep` with a request on the private page of the camera's domain. -/
def sleepFrame : TrapFrame :=
  { busyFrame 0x41000010 0x41050208 with x := fun r => if r.val = 8 then 6 else if r.val = 0 then 0x41000010 else 0 }

/-- The camera yields, the display yields back with 5 in its `x0`. -/
def displayWaits : MachineHistory × Machine :=
  traceFrom boardArch.machineStep [] boardArch.machineBoot
    (twoTaskSetUp ++ [.trap .svcYield (busyFrame 0 0x41050204), .trap .svcYield (busyFrame 5 0x41050004)])

/-- The camera then sleeps for a second, and the display goes on with 0 in its `x0`. -/
theorem nanosleep_overwrites_x0 : ∃ h m, Run anyStep boardArch.machineStep boardArch.machineBoot h m ∧
    m.sched.current = some firstSlot ∧ m.protection.currentDomain = domainA ∧
    (boardArch.svcSyscall m (requesting 1 0) sleepFrame).1.sched.current = some secondSlot ∧
    (m.sched.tasks secondSlot).context.x 0 = 5 ∧
    (∃ frame, (boardArch.svcSyscall m (requesting 1 0) sleepFrame).1.exec = .el0 frame ∧ frame.x 0 = 0) ∧
    ¬ m.LeavesRegisters sleepFrame (boardArch.svcSyscall m (requesting 1 0) sleepFrame).1 := by
  have r : Run anyStep boardArch.machineStep boardArch.machineBoot displayWaits.1 displayWaits.2 :=
    Run.start.trace (admits_anyStep _ _)
  have hfacts : displayWaits.2.sched.current = some firstSlot ∧ displayWaits.2.protection.currentDomain = domainA ∧
      (boardArch.svcSyscall displayWaits.2 (requesting 1 0) sleepFrame).1.sched.current = some secondSlot ∧
      (displayWaits.2.sched.tasks secondSlot).context.x 0 = 5 ∧
      (match (boardArch.svcSyscall displayWaits.2 (requesting 1 0) sleepFrame).1.exec with
        | .el0 frame => some (frame.x 0)
        | _ => none) = some 0 := by decide +kernel
  obtain ⟨hcur, hdomain, hnext, hsaved, hx0⟩ := hfacts
  split at hx0
  · rename_i frame hexec
    have hzero := Option.some.inj hx0
    refine ⟨_, _, r, hcur, hdomain, hnext, hsaved, ⟨frame, hexec, hzero⟩, not_leavesRegisters hnext ?_ hexec ?_⟩
    · rw [hcur]
      decide
    · rw [hzero, hsaved]
      decide
  · cases hx0

end Lettuce
