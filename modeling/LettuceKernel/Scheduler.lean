import LettuceKernel.Policy
import LettuceKernel.Lib.TableFold
import LettuceKernel.Lib.Run
/-!
# The scheduler mechanism (`kernel/scheduler/scheduler.c`)

| here | there |
| --- | --- |
| `schedulerInit`, `setPolicy` | `lettuce_scheduler_init`, `_set_policy` (scheduler.c:46, :69) |
| `wakeSleepers`       | step 1 of `do_schedule` (:110-128) |
| `requeue`            | saving the frame and queueing the current task (:142-151) |
| `selectNext`         | steps 3 and the two early returns (:155-174) |
| `switchTo`           | steps 4 and 5 (:176-214) |
| `doSchedule`         | `do_schedule` (:102) |
| `schedulerTick`, `schedulerYield`, `schedulerSleepCurrent` | :217, :235, :222 |
| `schedStep`          | one call of the interface |

`do_schedule` reaches outside the scheduler in three places: `lettuce_mmu_enter` and
`lettuce_el0_resume_kernel` (ARM64 build only) and `kernel_set_current_service_id`. Those
calls and their arguments are its `Handoff`, for the architecture model to perform. The timer
value both functions read is the argument `now`; interrupts are masked in between. The trap
frame is an argument and a result, `none` for a null pointer.
-/

namespace Lettuce

open Runs

/-- What `do_schedule` does outside the scheduler when it switches tasks. -/
structure Handoff where
  next : Slot
  /-- The argument of `lettuce_mmu_enter`, `none` when it is not called. -/
  domain : Option DomainId
  /-- The argument of `kernel_set_current_service_id`. -/
  serviceId : ServiceId
  /-- The preemption limit was reached: `lettuce_el0_resume_kernel` is called. -/
  resumeKernel : Bool
deriving DecidableEq, Repr

structure ScheduleResult where
  sched : Scheduler
  frame : Option TrapFrame
  handoff : Option Handoff

/-- Static storage at power-on: a zeroed table (generation 0, all UNUSED) and the RR policy. -/
def schedulerBoot : Scheduler where
  tasks := fun _ =>
    { id := 0, generation := 0, serviceId := 0, domainId := 0, state := .unused, weight := 0
      requestedSliceTicks := 0, timeSliceTicks := 0, quantumTicks := 0, vruntime := 0, vdeadline := 0
      sleepDeadlineTicks := 0, totalTicksRun := 0, context := initialContext 0 0 }
  current := none
  active := false
  policy := .rr
  rrLastIdx := 0
  vsys := 0
  switchCount := 0
  preemptCount := 0
  sameDomainSwitches := 0
  crossDomainSwitches := 0
  preemptLimit := 0

def schedulerInit (s : Scheduler) : Scheduler :=
  policyInit { s with
    tasks := taskInit, current := none, active := false, switchCount := 0, preemptCount := 0
    sameDomainSwitches := 0, crossDomainSwitches := 0, preemptLimit := 0 }

def setPolicy (s : Scheduler) (policy : Policy) : Scheduler := policyInit { s with policy }

/-- What step 1 makes of the task it finds in a slot. -/
def Task.wake (policy : Policy) (vsys now : Nat) (t : Task) : Task :=
  if t.state = .sleeping ∧ now ≥ t.sleepDeadlineTicks then onTaskWake policy vsys { t with state := .ready } else t

def wakeSlot (policy : Policy) (vsys now : Nat) (tasks : TaskTable) (slot : Slot) : TaskTable :=
  match scanSlot tasks slot with
  | none => tasks
  | some i => Function.update tasks i ((tasks i).wake policy vsys now)

def wakeSleepers (s : Scheduler) (now : Nat) : Scheduler :=
  { s with tasks := (List.finRange maxTasks).foldl (wakeSlot s.policy s.vsys now) s.tasks }

def requeue (s : Scheduler) (curr : Slot) (frame : TrapFrame) : Scheduler :=
  s.setTask curr (onTaskReady s.policy s.vsys { s.tasks curr with context := frame.save, state := .ready })

def Task.continueRunning (t : Task) : Task := { t with state := .running, timeSliceTicks := t.quantumTicks }

/-- `curr != 0 && next_task->domain_id == curr->domain_id` -/
def sameDomain (s : Scheduler) (next : Slot) : Bool :=
  match s.current with
  | none => false
  | some c => (s.tasks next).domainId = (s.tasks c).domainId

/-- `g_preempt_count` after the switch. -/
def Scheduler.nextPreemptCount (s : Scheduler) (isPreemption : Bool) : Nat :=
  if isPreemption then (s.preemptCount + 1) % 2 ^ 64 else s.preemptCount

/-- The switch is a preemption and brings the count to the limit (scheduler.c:205). -/
def Scheduler.limitReached (s : Scheduler) (isPreemption : Bool) : Bool :=
  isPreemption && decide (s.preemptLimit > 0) && decide (s.nextPreemptCount isPreemption ≥ s.preemptLimit)

def switchTo (s : Scheduler) (next : Slot) (isPreemption : Bool) : ScheduleResult :=
  { sched :=
      { s with
        tasks := Function.update s.tasks next { s.tasks next with state := .running }
        current := some next
        active := if s.limitReached isPreemption then false else s.active
        switchCount := (s.switchCount + 1) % 2 ^ 64
        preemptCount := s.nextPreemptCount isPreemption
        sameDomainSwitches :=
          if sameDomain s next then (s.sameDomainSwitches + 1) % 2 ^ 64 else s.sameDomainSwitches
        crossDomainSwitches :=
          if sameDomain s next then s.crossDomainSwitches else (s.crossDomainSwitches + 1) % 2 ^ 64 }
    frame := some (s.tasks next).context.restore
    handoff := some
      { next := next
        domain := if sameDomain s next then none else some (s.tasks next).domainId
        serviceId := (s.tasks next).serviceId
        resumeKernel := s.limitReached isPreemption } }

def selectNext (s : Scheduler) (frame : TrapFrame) (isPreemption : Bool) : ScheduleResult :=
  let picked := pickNext s s.current
  match picked.2 with
  | none =>
    match s.current with
    | none => ⟨picked.1, some frame, none⟩
    | some c =>
      if (picked.1.tasks c).state = .ready then
        ⟨picked.1.setTask c (picked.1.tasks c).continueRunning, some frame, none⟩
      else ⟨picked.1, some frame, none⟩
  | some next =>
    if s.current = some next then ⟨picked.1.setTask next (picked.1.tasks next).continueRunning, some frame, none⟩
    else switchTo picked.1 next isPreemption

def doSchedule (s : Scheduler) (now : Nat) (trapFrame : Option TrapFrame) (isPreemption : Bool) : ScheduleResult :=
  match trapFrame with
  | none => ⟨s, none, none⟩
  | some frame =>
    if !s.active then ⟨s, some frame, none⟩
    else
      let s := wakeSleepers s now
      match s.current with
      | none => selectNext s frame isPreemption
      | some curr =>
        if (s.tasks curr).state = .running then
          let s := onTick s curr 1
          if (s.tasks curr).timeSliceTicks > 0 && isPreemption then ⟨s, some frame, none⟩
          else selectNext (requeue s curr frame) frame isPreemption
        else selectNext s frame isPreemption

def schedulerTick (s : Scheduler) (now : BitVec 64) (trapFrame : Option TrapFrame) : ScheduleResult :=
  doSchedule s now.toNat trapFrame true

/-- `curr->time_slice_ticks = 0` before the yield. -/
def Task.dropSlice (t : Task) : Task := { t with timeSliceTicks := 0 }

def schedulerYield (s : Scheduler) (now : BitVec 64) (trapFrame : Option TrapFrame) : ScheduleResult :=
  match s.current with
  | none => ⟨s, trapFrame, none⟩
  | some c => doSchedule (s.setTask c (s.tasks c).dropSlice) now.toNat trapFrame false

/-- `curr` goes to sleep until `now + ticks` (the 64-bit sum may wrap). -/
def Task.sleepUntil (t : Task) (now ticks : Nat) : Task :=
  { t with sleepDeadlineTicks := (now + ticks) % 2 ^ 64, state := .sleeping }

def schedulerSleepCurrent (s : Scheduler) (ticks now : BitVec 64) (trapFrame : Option TrapFrame) : ScheduleResult :=
  match s.current with
  | none => ⟨s, trapFrame, none⟩
  | some c => doSchedule (s.setTask c ((s.tasks c).sleepUntil now.toNat ticks.toNat)) now.toNat trapFrame false

/-! ## Runs -/

/-- A call of the scheduler or task interface. `adopt` is the hand-over in main.c:783-784 and
:909-910, `lettuce_task_set_current(t); t->state = RUNNING;`. -/
inductive SchedEvent where
  | init
  | create (serviceId : ServiceId) (domainId : DomainId) (entryPc stackTop : Reg)
  | terminate (id : TaskId)
  | setWeight (task : Slot) (weight : BitVec 32)
  | setSlice (task : Slot) (sliceTicks : BitVec 32)
  | setPolicy (policy : Policy)
  | setPreemptLimit (maxPreempts : BitVec 64)
  | start
  | stop
  | adopt (task : Slot)
  | tick (now : BitVec 64) (frame : Option TrapFrame)
  | yield (now : BitVec 64) (frame : Option TrapFrame)
  | sleep (ticks now : BitVec 64) (frame : Option TrapFrame)

/-- The scheduler after `lettuce_task_terminate`, which also clears `g_current_task`. -/
def terminate (s : Scheduler) (id : TaskId) : Scheduler :=
  match taskGet s.tasks id with
  | none => s
  | some i =>
    { s with tasks := taskTerminate s.tasks id, current := if s.current = some i then none else s.current }

def adopt (s : Scheduler) (task : Slot) : Scheduler :=
  { s.setTask task { s.tasks task with state := .running } with current := some task }

/-- One call, with the frame and the handoff it produces. -/
def schedCall (s : Scheduler) : SchedEvent → ScheduleResult
  | .init => ⟨schedulerInit s, none, none⟩
  | .create serviceId domainId entryPc stackTop =>
    ⟨{ s with tasks := (taskCreate s.tasks serviceId domainId entryPc stackTop).1 }, none, none⟩
  | .terminate id => ⟨terminate s id, none, none⟩
  | .setWeight task weight => ⟨{ s with tasks := taskSetWeight s.tasks task weight }, none, none⟩
  | .setSlice task sliceTicks => ⟨{ s with tasks := taskSetSlice s.tasks task sliceTicks }, none, none⟩
  | .setPolicy policy => ⟨setPolicy s policy, none, none⟩
  | .setPreemptLimit maxPreempts => ⟨{ s with preemptLimit := maxPreempts.toNat }, none, none⟩
  | .start => ⟨{ s with active := true }, none, none⟩
  | .stop => ⟨{ s with active := false }, none, none⟩
  | .adopt task => ⟨adopt s task, none, none⟩
  | .tick now frame => schedulerTick s now frame
  | .yield now frame => schedulerYield s now frame
  | .sleep ticks now frame => schedulerSleepCurrent s ticks now frame

def schedStep (s : Scheduler) (e : SchedEvent) : Scheduler := (schedCall s e).sched

/-- The timer value and frame of a scheduling event. -/
def SchedEvent.scheduling : SchedEvent → Option (BitVec 64 × Option TrapFrame)
  | .tick now frame => some (now, frame)
  | .yield now frame => some (now, frame)
  | .sleep _ now frame => some (now, frame)
  | _ => none

abbrev SchedHistory := List (Scheduler × SchedEvent)

theorem schedulerInit_tasks (s : Scheduler) : (schedulerInit s).tasks = taskInit := by
  unfold schedulerInit policyInit
  dsimp only
  split <;> rfl

theorem schedulerInit_current (s : Scheduler) : (schedulerInit s).current = none := by
  unfold schedulerInit policyInit
  dsimp only
  split <;> rfl

theorem terminate_cases (s : Scheduler) (id : TaskId) : terminate s id = s ∨
    ∃ i, taskGet s.tasks id = some i ∧ terminate s id =
      { s with tasks := Function.update s.tasks i (s.tasks i).terminate
               current := if s.current = some i then none else s.current } := by
  unfold terminate
  split
  · exact Or.inl rfl
  · rename_i i hi
    exact Or.inr ⟨i, hi, by simp only [taskTerminate, hi]⟩

/-! ## What a scheduling call can do to a task -/

def Task.Live (t : Task) : Prop := t.state ≠ .unused ∧ t.state ≠ .terminated

theorem live_of_state {t : Task} {st : TaskState} (h : t.state = st) (hst : st ≠ .unused ∧ st ≠ .terminated) :
    t.Live := by
  subst h; exact hst

/-- A task without accounting, state and registers. -/
def Task.ident (t : Task) : Task := { t.kept with state := .unused, context := initialContext 0 0 }

/-- The identity stays, no task comes to life or dies, and none falls asleep. -/
structure TaskMove (t t' : Task) : Prop where
  ident : t'.ident = t.ident
  live : t'.Live ↔ t.Live
  sleeping : t'.state = .sleeping → t.state = .sleeping

theorem TaskMove.refl (t : Task) : TaskMove t t := ⟨rfl, Iff.rfl, id⟩

theorem TaskMove.trans {t t' t'' : Task} (h : TaskMove t t') (h' : TaskMove t' t'') : TaskMove t t'' :=
  ⟨h'.ident.trans h.ident, h'.live.trans h.live, fun hs => h.sleeping (h'.sleeping hs)⟩

theorem kept_ident {t t' : Task} (h : t'.kept = t.kept) : t'.ident = t.ident := by
  simp only [Task.ident, h]

theorem TaskMove.of_kept {t t' : Task} (h : t'.kept = t.kept) : TaskMove t t' :=
  ⟨kept_ident h, by simp only [Task.Live, kept_state h], fun hs => kept_state h ▸ hs⟩

/-- Becoming READY or RUNNING from a live state is a move. -/
theorem TaskMove.of_ident {t t' : Task} (h : t'.ident = t.ident) (hl : t.Live)
    (hs : t'.state = .ready ∨ t'.state = .running) : TaskMove t t' := by
  refine ⟨h, iff_of_true ?_ hl, fun h' => ?_⟩
  · rcases hs with hs | hs <;> exact live_of_state hs (by decide)
  · rw [h'] at hs; rcases hs with hs | hs <;> cases hs

theorem ident_generation {t t' : Task} (h : t'.ident = t.ident) : t'.generation = t.generation := by
  have := congrArg Task.generation h; exact this

theorem ident_weight {t t' : Task} (h : t'.ident = t.ident) : t'.weight = t.weight := by
  have := congrArg Task.weight h; exact this

theorem ident_serviceId {t t' : Task} (h : t'.ident = t.ident) : t'.serviceId = t.serviceId := by
  have := congrArg Task.serviceId h; exact this

theorem ident_domainId {t t' : Task} (h : t'.ident = t.ident) : t'.domainId = t.domainId := by
  have := congrArg Task.domainId h; exact this

theorem ident_sleepDeadlineTicks {t t' : Task} (h : t'.ident = t.ident) :
    t'.sleepDeadlineTicks = t.sleepDeadlineTicks := by
  have := congrArg Task.sleepDeadlineTicks h; exact this

/-! ## Step 1: waking -/

/-- A task `do_schedule` may hand the processor to at timer value `now`. -/
def Task.Runnable (now : Nat) (t : Task) : Prop :=
  t.Scanned ∧ (t.state = .ready ∨ (t.state = .sleeping ∧ t.sleepDeadlineTicks ≤ now))

instance (now : Nat) (t : Task) : Decidable (t.Runnable now) := inferInstanceAs (Decidable (_ ∧ _))

theorem runnable_live {now : Nat} {t : Task} (h : t.Runnable now) : t.Live := by
  rcases h.2 with hs | ⟨hs, -⟩
  · exact live_of_state hs (by decide)
  · exact live_of_state hs (by decide)

section
variable {policy : Policy} {vsys now : Nat} {t : Task}

theorem Task.wake_of_due (hs : t.state = .sleeping) (hd : t.sleepDeadlineTicks ≤ now) :
    t.wake policy vsys now = onTaskWake policy vsys { t with state := .ready } := if_pos ⟨hs, hd⟩

theorem Task.wake_of_not_due (h : ¬ (t.state = .sleeping ∧ t.sleepDeadlineTicks ≤ now)) :
    t.wake policy vsys now = t := if_neg h

theorem Task.wake_move (t : Task) : TaskMove t (t.wake policy vsys now) := by
  by_cases h : t.state = .sleeping ∧ t.sleepDeadlineTicks ≤ now
  · rw [Task.wake_of_due h.1 h.2]
    have hk := onTaskWake_kept policy vsys { t with state := .ready }
    exact TaskMove.of_ident ((kept_ident hk).trans rfl) (live_of_state h.1 (by decide)) (Or.inl (kept_state hk))
  · rw [Task.wake_of_not_due h]; exact TaskMove.refl t

theorem Task.wake_context (t : Task) : (t.wake policy vsys now).context = t.context := by
  unfold Task.wake
  split
  · exact (kept_context (onTaskWake_kept policy vsys { t with state := .ready })).trans rfl
  · rfl

/-- Waking turns the due sleepers READY and leaves the other states alone. -/
theorem Task.wake_state (t : Task) : (t.wake policy vsys now).state =
    if t.state = .sleeping ∧ t.sleepDeadlineTicks ≤ now then .ready else t.state := by
  unfold Task.wake
  split
  · exact kept_state (onTaskWake_kept policy vsys { t with state := .ready })
  · rfl

end

section
variable (s : Scheduler) (now : Nat)

@[simp] theorem wakeSleepers_current : (wakeSleepers s now).current = s.current := by simp only [wakeSleepers]

@[simp] theorem wakeSleepers_active : (wakeSleepers s now).active = s.active := by simp only [wakeSleepers]

@[simp] theorem wakeSleepers_policy : (wakeSleepers s now).policy = s.policy := by simp only [wakeSleepers]

@[simp] theorem wakeSleepers_vsys : (wakeSleepers s now).vsys = s.vsys := by simp only [wakeSleepers]

@[simp] theorem wakeSleepers_preemptCount : (wakeSleepers s now).preemptCount = s.preemptCount := by
  simp only [wakeSleepers]

@[simp] theorem wakeSleepers_preemptLimit : (wakeSleepers s now).preemptLimit = s.preemptLimit := by
  simp only [wakeSleepers]

end

theorem wakeSlot_eq (policy : Policy) (vsys now : Nat) (tasks : TaskTable) (slot : Slot) :
    wakeSlot policy vsys now tasks slot = Function.update tasks slot
      (if (tasks slot).Scanned then (tasks slot).wake policy vsys now else tasks slot) := by
  unfold wakeSlot
  rw [scanSlot_eq]
  by_cases hs : (tasks slot).Scanned
  · simp [hs]
  · simp [hs, Function.update_eq_self]

theorem wakeSleepers_tasks (s : Scheduler) (now : Nat) (i : Slot) : (wakeSleepers s now).tasks i =
    if (s.tasks i).Scanned then (s.tasks i).wake s.policy s.vsys now else s.tasks i := by
  obtain ⟨f, hf⟩ : ∃ f : Slot → Task → Task, f = fun _ t => if t.Scanned then t.wake s.policy s.vsys now else t :=
    ⟨_, rfl⟩
  have hloop : wakeSlot s.policy s.vsys now = fun tasks slot => Function.update tasks slot (f slot (tasks slot)) := by
    funext tasks slot
    rw [hf]
    exact wakeSlot_eq s.policy s.vsys now tasks slot
  simp only [wakeSleepers, hloop]
  rw [TableFold.foldl_update_finRange f, hf]

theorem wakeSleepers_move (s : Scheduler) (now : Nat) (i : Slot) :
    TaskMove (s.tasks i) ((wakeSleepers s now).tasks i) := by
  rw [wakeSleepers_tasks]
  split
  · exact Task.wake_move _
  · exact TaskMove.refl _

theorem wakeSleepers_context (s : Scheduler) (now : Nat) (i : Slot) :
    ((wakeSleepers s now).tasks i).context = (s.tasks i).context := by
  rw [wakeSleepers_tasks]
  split
  · exact Task.wake_context _
  · rfl

theorem wakeSleepers_running (s : Scheduler) (now : Nat) (i : Slot) :
    ((wakeSleepers s now).tasks i).state = .running ↔ (s.tasks i).state = .running := by
  rw [wakeSleepers_tasks]
  split
  · rw [Task.wake_state]
    split
    · rename_i h; simp [h.1]
    · exact Iff.rfl
  · exact Iff.rfl

/-- A running task is not touched by the wake scan. -/
theorem wakeSleepers_of_running {s : Scheduler} {i : Slot} (h : (s.tasks i).state = .running) (now : Nat) :
    (wakeSleepers s now).tasks i = s.tasks i := by
  rw [wakeSleepers_tasks]
  split
  · exact Task.wake_of_not_due (by simp [h])
  · rfl

theorem wakeSleepers_selectable (s : Scheduler) (now : Nat) (i : Slot) :
    ((wakeSleepers s now).tasks i).Selectable ↔ (s.tasks i).Runnable now := by
  rw [wakeSleepers_tasks]
  by_cases hs : (s.tasks i).Scanned
  · rw [if_pos hs]
    have hgen : ((s.tasks i).wake s.policy s.vsys now).generation = (s.tasks i).generation :=
      ident_generation (Task.wake_move (s.tasks i)).ident
    obtain ⟨h1, h10, hu⟩ := hs
    simp only [Task.Selectable, Task.Runnable, Task.Scanned, hgen, Task.wake_state]
    by_cases hd : (s.tasks i).state = .sleeping ∧ (s.tasks i).sleepDeadlineTicks ≤ now
    · simp [hd, h1, h10]
    · simp only [if_neg hd, h1, h10, hu, ne_eq, not_false_eq_true, and_self, true_and]
      exact ⟨Or.inl, fun h => h.resolve_right hd⟩
  · rw [if_neg hs]
    simp [Task.Selectable, Task.Runnable, hs]

/-! ## Steps 3 to 5: selecting and switching -/

theorem selectable_live {t : Task} (h : t.Selectable) : t.Live := live_of_state h.2 (by decide)

/-- The result of a selection that leaves the current task on the processor. -/
structure Stays (s : Scheduler) (frame : Option TrapFrame) (r : ScheduleResult) : Prop where
  frame : r.frame = frame
  handoff : r.handoff = none
  current : r.sched.current = s.current
  active : r.sched.active = s.active
  preemptCount : r.sched.preemptCount = s.preemptCount

/-- `selectNext` either leaves the current task running or switches to another READY task that
the scan found. -/
theorem selectNext_cases (s : Scheduler) (frame : TrapFrame) (pre : Bool) :
    Stays s (some frame) (selectNext s frame pre) ∨
      ∃ j, (s.tasks j).Selectable ∧ s.current ≠ some j ∧
        selectNext s frame pre = switchTo (pickNext s s.current).1 j pre := by
  have hf := pickNext_frame s s.current
  unfold selectNext
  dsimp only
  split
  · split
    · exact Or.inl ⟨rfl, rfl, hf.current, hf.active, hf.preemptCount⟩
    · split
      · exact Or.inl ⟨rfl, rfl, hf.current, hf.active, hf.preemptCount⟩
      · exact Or.inl ⟨rfl, rfl, hf.current, hf.active, hf.preemptCount⟩
  · rename_i j hj
    split
    · exact Or.inl ⟨rfl, rfl, hf.current, hf.active, hf.preemptCount⟩
    · rename_i hne
      rcases pickNext_some hj with hsel | ⟨hcur, -⟩
      · exact Or.inr ⟨j, hsel, hne, rfl⟩
      · exact absurd hcur hne

theorem selectNext_move (s : Scheduler) (frame : TrapFrame) (pre : Bool) (i : Slot) :
    TaskMove (s.tasks i) ((selectNext s frame pre).sched.tasks i) := by
  have hf := pickNext_frame s s.current
  have hmove : ∀ k, TaskMove (s.tasks k) ((pickNext s s.current).1.tasks k) := fun k => .of_kept (hf.tasks k)
  -- rewriting one live task's state to RUNNING
  have hset : ∀ j t, t.ident = ((pickNext s s.current).1.tasks j).ident → t.state = .running →
      ((pickNext s s.current).1.tasks j).Live →
      TaskMove (s.tasks i) (Function.update (pickNext s s.current).1.tasks j t i) := by
    intro j t hid hst hlive
    by_cases hi : i = j
    · subst hi
      rw [Function.update_self]
      exact (hmove i).trans (.of_ident hid hlive (Or.inr hst))
    · rw [Function.update_of_ne hi]; exact hmove i
  unfold selectNext
  dsimp only
  split
  · split
    · exact hmove i
    · split
      · rename_i hready
        exact hset _ _ rfl rfl (live_of_state hready (by decide))
      · exact hmove i
  · rename_i j hj
    have hlive : ((pickNext s s.current).1.tasks j).Live := by
      rcases pickNext_some hj with hsel | ⟨-, hrun⟩
      · exact (hmove j).live.2 (selectable_live hsel)
      · exact (hmove j).live.2 (live_of_state hrun (by decide))
    split
    · exact hset _ _ rfl rfl hlive
    · exact hset _ _ rfl rfl hlive

theorem selectNext_context (s : Scheduler) (frame : TrapFrame) (pre : Bool) (i : Slot) :
    ((selectNext s frame pre).sched.tasks i).context = (s.tasks i).context := by
  have hf := pickNext_frame s s.current
  have hset : ∀ j t, t.context = ((pickNext s s.current).1.tasks j).context →
      (Function.update (pickNext s s.current).1.tasks j t i).context = (s.tasks i).context := by
    intro j t ht
    by_cases hi : i = j
    · subst hi; rw [Function.update_self, ht]; exact kept_context (hf.tasks i)
    · rw [Function.update_of_ne hi]; exact kept_context (hf.tasks i)
  unfold selectNext
  dsimp only
  split
  · split
    · exact kept_context (hf.tasks i)
    · split
      · exact hset _ _ rfl
      · exact kept_context (hf.tasks i)
  · split
    · exact hset _ _ rfl
    · exact hset _ _ rfl

/-! ## Step 2 and the whole of `do_schedule` -/

/-- The scheduler as step 3 finds it: sleepers woken, the running task charged and queued. -/
def prepared (s : Scheduler) (now : Nat) (frame : TrapFrame) : Scheduler :=
  let s := wakeSleepers s now
  match s.current with
  | none => s
  | some curr => if (s.tasks curr).state = .running then requeue (onTick s curr 1) curr frame else s

theorem onTick_timeSliceTicks {s : Scheduler} {c : Slot} (h : (s.tasks c).state = .running) :
    ((onTick s c 1).tasks c).timeSliceTicks = (s.tasks c).timeSliceTicks - 1 := by
  have hcharge : ((s.tasks c).chargeSlice 1).timeSliceTicks = (s.tasks c).timeSliceTicks - 1 := by
    simp only [Task.chargeSlice]
    split
    · rfl
    · omega
  unfold onTick rrOnTick eevdfOnTick
  split
  · rw [if_pos h]; simpa [Scheduler.setTask] using hcharge
  · dsimp only
    rw [if_pos h]
    simpa [Scheduler.setTask] using hcharge

/-- An active `do_schedule` returns early on a running task with more than one tick left of its
slice, when it is a preemption; otherwise it goes on to the selection. -/
theorem doSchedule_cases {s : Scheduler} (ha : s.active = true) (now : Nat) (frame : TrapFrame) (pre : Bool) :
    (∃ c, s.current = some c ∧ (s.tasks c).state = .running ∧ pre = true ∧ 1 < (s.tasks c).timeSliceTicks ∧
      doSchedule s now (some frame) pre = ⟨onTick (wakeSleepers s now) c 1, some frame, none⟩) ∨
    ((∀ c, s.current = some c → (s.tasks c).state = .running → pre = true → (s.tasks c).timeSliceTicks ≤ 1) ∧
      doSchedule s now (some frame) pre = selectNext (prepared s now frame) frame pre) := by
  unfold doSchedule prepared
  simp only [ha, Bool.not_true, Bool.false_eq_true, ↓reduceIte, wakeSleepers_current]
  cases hc : s.current with
  | none => exact Or.inr ⟨nofun, rfl⟩
  | some c =>
    simp only [wakeSleepers_running]
    by_cases hrun : (s.tasks c).state = .running
    · have hslice := onTick_timeSliceTicks ((wakeSleepers_running s now c).2 hrun)
      rw [wakeSleepers_of_running hrun] at hslice
      simp only [hrun, ↓reduceIte, hslice]
      by_cases hstay : pre = true ∧ 1 < (s.tasks c).timeSliceTicks
      · left
        refine ⟨c, rfl, hrun, hstay.1, hstay.2, ?_⟩
        rw [if_pos (by simp [hstay.1]; omega)]
      · right
        refine ⟨?_, ?_⟩
        · rintro c' ⟨⟩ - hp
          by_contra hlt
          exact hstay ⟨hp, by omega⟩
        · rw [if_neg]
          intro hgo
          simp only [gt_iff_lt, Bool.and_eq_true, decide_eq_true_eq] at hgo
          exact hstay ⟨hgo.2, by omega⟩
    · right
      refine ⟨?_, by rw [if_neg hrun, if_neg hrun]⟩
      rintro c' ⟨⟩ h
      exact absurd h hrun

section
variable (s : Scheduler) (now : Nat) (frame : TrapFrame)

theorem prepared_of_running {c : Slot} (hc : s.current = some c) (hrun : (s.tasks c).state = .running) :
    prepared s now frame = requeue (onTick (wakeSleepers s now) c 1) c frame := by
  unfold prepared
  simp only [wakeSleepers_current, hc]
  rw [if_pos ((wakeSleepers_running s now c).2 hrun)]

theorem prepared_of_not_running (h : ∀ c, s.current = some c → (s.tasks c).state ≠ .running) :
    prepared s now frame = wakeSleepers s now := by
  unfold prepared
  simp only [wakeSleepers_current]
  split
  · rfl
  · rename_i c hc
    rw [if_neg (fun hr => h c hc ((wakeSleepers_running s now c).1 hr))]

/-- Case split on whether there is a running task to charge. -/
theorem running_or_not : (∃ c, s.current = some c ∧ (s.tasks c).state = .running) ∨
    ∀ c, s.current = some c → (s.tasks c).state ≠ .running := by
  by_cases h : ∃ c, s.current = some c ∧ (s.tasks c).state = .running
  · exact Or.inl h
  · exact Or.inr fun c hc hr => h ⟨c, hc, hr⟩

/-- The variables `prepared` leaves alone. -/
theorem prepared_mech : (prepared s now frame).current = s.current ∧ (prepared s now frame).active = s.active ∧
    (prepared s now frame).policy = s.policy ∧ (prepared s now frame).preemptCount = s.preemptCount ∧
    (prepared s now frame).preemptLimit = s.preemptLimit := by
  rcases running_or_not s with ⟨c, hc, hrun⟩ | h
  · rw [prepared_of_running s now frame hc hrun]
    have hf := onTick_frame (wakeSleepers s now) c 1
    simp only [requeue, Scheduler.setTask, hf.current, hf.active, hf.policy, hf.preemptCount, hf.preemptLimit,
      wakeSleepers_current, wakeSleepers_active, wakeSleepers_policy, wakeSleepers_preemptCount,
      wakeSleepers_preemptLimit, and_self]
  · rw [prepared_of_not_running s now frame h]
    simp

theorem requeue_tasks (s : Scheduler) (c : Slot) (frame : TrapFrame) (i : Slot) : (requeue s c frame).tasks i =
    if i = c then onTaskReady s.policy s.vsys { s.tasks c with context := frame.save, state := .ready }
    else s.tasks i := by
  unfold requeue Scheduler.setTask
  by_cases hi : i = c
  · subst hi; simp
  · simp [hi]

/-- What step 2 does to a task that is not the running one: nothing a policy keeps. -/
theorem prepared_kept_of_ne {i : Slot} (hi : s.current ≠ some i) :
    ((prepared s now frame).tasks i).kept = ((wakeSleepers s now).tasks i).kept := by
  rcases running_or_not s with ⟨c, hc, hrun⟩ | h
  · rw [prepared_of_running s now frame hc hrun, requeue_tasks]
    have hne : i ≠ c := fun he => hi (he ▸ hc)
    rw [if_neg hne]
    exact (onTick_frame _ c 1).tasks i
  · rw [prepared_of_not_running s now frame h]

theorem prepared_move (i : Slot) :
    TaskMove ((wakeSleepers s now).tasks i) ((prepared s now frame).tasks i) := by
  rcases running_or_not s with ⟨c, hc, hrun⟩ | h
  · rw [prepared_of_running s now frame hc hrun, requeue_tasks]
    have htick : TaskMove ((wakeSleepers s now).tasks i) ((onTick (wakeSleepers s now) c 1).tasks i) :=
      .of_kept ((onTick_frame _ c 1).tasks i)
    by_cases hi : i = c
    · subst hi
      rw [if_pos rfl]
      have hk := onTaskReady_kept (onTick (wakeSleepers s now) i 1).policy (onTick (wakeSleepers s now) i 1).vsys
        { (onTick (wakeSleepers s now) i 1).tasks i with context := frame.save, state := .ready }
      have hrun' := (wakeSleepers_running s now i).2 hrun
      have hlive : ((wakeSleepers s now).tasks i).Live := live_of_state hrun' (by decide)
      exact .of_ident ((kept_ident hk).trans htick.ident) hlive (Or.inl (kept_state hk))
    · rw [if_neg hi]; exact htick
  · rw [prepared_of_not_running s now frame h]; exact TaskMove.refl _

/-- The frame is saved exactly into a current task that is RUNNING. -/
theorem prepared_context (i : Slot) : ((prepared s now frame).tasks i).context =
    if s.current = some i ∧ (s.tasks i).state = .running then frame.save else (s.tasks i).context := by
  rcases running_or_not s with ⟨c, hc, hrun⟩ | h
  · rw [prepared_of_running s now frame hc hrun, requeue_tasks]
    by_cases hi : i = c
    · subst hi
      rw [if_pos rfl, if_pos ⟨hc, hrun⟩]
      exact (kept_context (onTaskReady_kept _ _ _)).trans rfl
    · rw [if_neg hi, if_neg (fun h => hi (Option.some.inj (h.1.symm.trans hc)))]
      exact (kept_context ((onTick_frame _ c 1).tasks i)).trans (wakeSleepers_context s now i)
  · rw [prepared_of_not_running s now frame h, if_neg (fun hr => h i hr.1 hr.2)]
    exact wakeSleepers_context s now i

theorem prepared_selectable {i : Slot} (hi : s.current ≠ some i) :
    ((prepared s now frame).tasks i).Selectable ↔ (s.tasks i).Runnable now := by
  rw [selectable_congr (prepared_kept_of_ne s now frame hi), wakeSleepers_selectable]

end

/-- The result of `do_schedule` when it hands the processor to task `j`. -/
structure Switches (s : Scheduler) (now : Nat) (tf : TrapFrame) (pre : Bool) (j : Slot) (r : ScheduleResult) :
    Prop where
  wasActive : s.active = true
  runnable : (s.tasks j).Runnable now
  other : s.current ≠ some j
  /-- A preempted task has used up its slice. -/
  expired : ∀ c, s.current = some c → (s.tasks c).state = .running → pre = true → (s.tasks c).timeSliceTicks ≤ 1
  frame : r.frame = some (s.tasks j).context.restore
  handoff : r.handoff = some
    { next := j, domain := if sameDomain s j then none else some (s.tasks j).domainId
      serviceId := (s.tasks j).serviceId, resumeKernel := s.limitReached pre }
  current : r.sched.current = some j
  active : r.sched.active = !s.limitReached pre
  /-- The frame is saved only if the task switched out was RUNNING. -/
  saved : ∀ i, (r.sched.tasks i).context =
    if s.current = some i ∧ (s.tasks i).state = .running then tf.save else (s.tasks i).context

section
variable {s : Scheduler} (now : Nat) (frame : TrapFrame) (pre : Bool)

theorem limitReached_congr {s s' : Scheduler} (hc : s'.preemptCount = s.preemptCount)
    (hl : s'.preemptLimit = s.preemptLimit) (pre : Bool) : s'.limitReached pre = s.limitReached pre := by
  unfold Scheduler.limitReached Scheduler.nextPreemptCount
  rw [hc, hl]

theorem sameDomain_congr {s s' : Scheduler} {j : Slot} (hc : s'.current = s.current)
    (hd : ∀ i, (s'.tasks i).domainId = (s.tasks i).domainId) : sameDomain s' j = sameDomain s j := by
  unfold sameDomain
  rw [hc]
  cases s.current with
  | none => rfl
  | some c => simp only [hd]

/-- `selectNext` after step 2, when it switches. -/
theorem selectNext_switches {j : Slot} (ha : s.active = true)
    (hexp : ∀ c, s.current = some c → (s.tasks c).state = .running → pre = true → (s.tasks c).timeSliceTicks ≤ 1)
    (hsel : ((prepared s now frame).tasks j).Selectable) (hne : (prepared s now frame).current ≠ some j)
    (heq : selectNext (prepared s now frame) frame pre =
      switchTo (pickNext (prepared s now frame) (prepared s now frame).current).1 j pre) :
    Switches s now frame pre j (selectNext (prepared s now frame) frame pre) := by
  obtain ⟨hcur, hact, -, hcount, hlimit⟩ := prepared_mech s now frame
  have hf := pickNext_frame (prepared s now frame) (prepared s now frame).current
  have hid : ∀ i, ((pickNext (prepared s now frame) (prepared s now frame).current).1.tasks i).ident =
      (s.tasks i).ident := fun i =>
    (kept_ident (hf.tasks i)).trans ((prepared_move s now frame i).ident.trans (wakeSleepers_move s now i).ident)
  have hreached := limitReached_congr (hf.preemptCount.trans hcount) (hf.preemptLimit.trans hlimit) pre
  have hdom := sameDomain_congr (s := s) (j := j) (hf.current.trans hcur) fun i => ident_domainId (hid i)
  rw [hcur] at hne
  have hctx : ((pickNext (prepared s now frame) (prepared s now frame).current).1.tasks j).context =
      (s.tasks j).context := by
    rw [kept_context (hf.tasks j), prepared_context, if_neg (fun h => hne h.1)]
  refine ⟨ha, (prepared_selectable s now frame hne).1 hsel, hne, hexp, ?_, ?_, ?_, ?_, fun i => ?_⟩
  · rw [heq]; simp only [switchTo, hctx]
  · rw [heq]
    simp only [switchTo, hreached, hdom, ident_domainId (hid j), ident_serviceId (hid j)]
  · rw [heq]; simp only [switchTo]
  · rw [heq]
    simp only [switchTo, hreached, hf.active, hact, ha]
    cases s.limitReached pre <;> rfl
  · rw [selectNext_context, prepared_context]

theorem doSchedule_inactive {s : Scheduler} (ha : s.active = false) (now : Nat) (trapFrame : Option TrapFrame)
    (pre : Bool) : doSchedule s now trapFrame pre = ⟨s, trapFrame, none⟩ := by
  cases trapFrame with
  | none => rfl
  | some frame => simp [doSchedule, ha]

/-- `do_schedule` keeps the current task on the processor, or hands it to another runnable task. -/
theorem doSchedule_spec (s : Scheduler) (now : Nat) (trapFrame : Option TrapFrame) (pre : Bool) :
    Stays s trapFrame (doSchedule s now trapFrame pre) ∨
      ∃ frame j, trapFrame = some frame ∧ Switches s now frame pre j (doSchedule s now trapFrame pre) := by
  cases ha : s.active with
  | false => rw [doSchedule_inactive ha]; exact Or.inl ⟨rfl, rfl, rfl, rfl, rfl⟩
  | true =>
    cases trapFrame with
    | none => exact Or.inl ⟨rfl, rfl, rfl, rfl, rfl⟩
    | some frame =>
      rcases doSchedule_cases ha now frame pre with ⟨c, hc, -, -, -, heq⟩ | ⟨hexp, heq⟩
      · have hf := onTick_frame (wakeSleepers s now) c 1
        rw [heq]
        exact Or.inl ⟨rfl, rfl, by simpa using hf.current, by simpa using hf.active, by simpa using hf.preemptCount⟩
      · obtain ⟨hcur, hact, -, hcount, -⟩ := prepared_mech s now frame
        rw [heq]
        rcases selectNext_cases (prepared s now frame) frame pre with hst | ⟨j, hsel, hne, hj⟩
        · exact Or.inl ⟨hst.frame, hst.handoff, hst.current.trans hcur, hst.active.trans hact,
            hst.preemptCount.trans hcount⟩
        · exact Or.inr ⟨frame, j, rfl, selectNext_switches now frame pre ha hexp hsel hne hj⟩

/-- The state in which `do_schedule` reaches its handover: it is active, a preempted task has used
up its slice, and the policy picks a task other than the current one. -/
structure Scheduler.SwitchDue (s : Scheduler) (now : Nat) (frame : TrapFrame) (pre : Bool) : Prop where
  active : s.active = true
  expired : ∀ c, s.current = some c → (s.tasks c).state = .running → pre = true → (s.tasks c).timeSliceTicks ≤ 1
  picked : ∃ j, (pickNext (prepared s now frame) s.current).2 = some j ∧ s.current ≠ some j

theorem selectNext_handoff (s : Scheduler) (frame : TrapFrame) (pre : Bool) :
    (selectNext s frame pre).handoff.isSome ↔ ∃ j, (pickNext s s.current).2 = some j ∧ s.current ≠ some j := by
  unfold selectNext
  dsimp only
  split
  · rename_i hnone
    simp only [hnone, reduceCtorEq, false_and, exists_false, iff_false, Bool.not_eq_true]
    split
    · rfl
    · split <;> rfl
  · rename_i j hj
    simp only [hj, Option.some.injEq, exists_eq_left']
    by_cases hcur : s.current = some j
    · rw [if_pos hcur]; simp [hcur]
    · rw [if_neg hcur]; simp [switchTo, hcur]

/-- `do_schedule` switches tasks exactly in these states. -/
theorem doSchedule_handoff (s : Scheduler) (now : Nat) (frame : TrapFrame) (pre : Bool) :
    (doSchedule s now (some frame) pre).handoff.isSome ↔ s.SwitchDue now frame pre := by
  cases ha : s.active with
  | false =>
    rw [doSchedule_inactive ha]
    exact iff_of_false (by simp) fun hd => absurd hd.active (by simp [ha])
  | true =>
    have hcur := (prepared_mech s now frame).1
    rcases doSchedule_cases ha now frame pre with ⟨c, hc, hrun, hpre, hslice, heq⟩ | ⟨hexp, heq⟩
    · rw [heq]
      refine iff_of_false (by simp) fun hd => ?_
      have := hd.expired c hc hrun hpre
      omega
    · rw [heq, selectNext_handoff, hcur]
      exact ⟨fun h => ⟨ha, hexp, h⟩, fun h => h.picked⟩

/-- From the wake scan on, an active `do_schedule` only moves tasks. -/
theorem doSchedule_move_woken {s : Scheduler} (ha : s.active = true) (now : Nat) (frame : TrapFrame) (pre : Bool)
    (i : Slot) :
    TaskMove ((wakeSleepers s now).tasks i) ((doSchedule s now (some frame) pre).sched.tasks i) := by
  rcases doSchedule_cases ha now frame pre with ⟨c, -, -, -, -, heq⟩ | ⟨-, heq⟩
  · rw [heq]
    exact .of_kept ((onTick_frame _ c 1).tasks i)
  · rw [heq]
    exact (prepared_move s now frame i).trans (selectNext_move _ frame pre i)

theorem doSchedule_move (s : Scheduler) (now : Nat) (trapFrame : Option TrapFrame) (pre : Bool) (i : Slot) :
    TaskMove (s.tasks i) ((doSchedule s now trapFrame pre).sched.tasks i) := by
  cases ha : s.active with
  | false => rw [doSchedule_inactive ha]; exact TaskMove.refl _
  | true =>
    cases trapFrame with
    | none => exact TaskMove.refl _
    | some frame => exact (wakeSleepers_move s now i).trans (doSchedule_move_woken ha now frame pre i)

/-- A live current task, or the runnable one that replaces it, is live afterwards. -/
theorem doSchedule_current_live {s : Scheduler} (hlive : ∀ c, s.current = some c → (s.tasks c).Live) (now : Nat)
    (trapFrame : Option TrapFrame) (pre : Bool) (c : Slot)
    (hc : (doSchedule s now trapFrame pre).sched.current = some c) :
    ((doSchedule s now trapFrame pre).sched.tasks c).Live := by
  rw [(doSchedule_move s now trapFrame pre c).live]
  rcases doSchedule_spec s now trapFrame pre with hst | ⟨frame, j, -, hsw⟩
  · exact hlive c (hst.current ▸ hc)
  · rw [hsw.current] at hc
    cases hc
    exact runnable_live hsw.runnable

/-- Only the current task's registers are ever written. -/
theorem doSchedule_context (s : Scheduler) (now : Nat) (trapFrame : Option TrapFrame) (pre : Bool) {i : Slot}
    (hi : s.current ≠ some i) :
    ((doSchedule s now trapFrame pre).sched.tasks i).context = (s.tasks i).context := by
  cases ha : s.active with
  | false => rw [doSchedule_inactive ha]
  | true =>
    cases trapFrame with
    | none => rfl
    | some frame =>
      rcases doSchedule_cases ha now frame pre with ⟨c, -, -, -, -, heq⟩ | ⟨-, heq⟩
      · rw [heq]
        exact (kept_context ((onTick_frame _ c 1).tasks i)).trans (wakeSleepers_context s now i)
      · rw [heq, selectNext_context, prepared_context, if_neg (fun h => hi h.1)]

end

end Lettuce
