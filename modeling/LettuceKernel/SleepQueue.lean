import LettuceKernel.SchedulerDecision
/-!
# How long a task sleeps

`lettuce_scheduler_sleep_current` stores a deadline, and the first step of `do_schedule` wakes the tasks whose deadline has
passed (scheduler.c:109-130). Seen from outside this is a queue of deadlines, one for each slot: a sleep enters `now + ticks`
modulo 2^64, every scheduling event takes out what is due, its own sleep included, and only tasks with one of the
generations 1 to 10 are ever taken out.
-/

namespace Lettuce

open Runs

/-- The deadline of a sleeping task. -/
def Task.asleep (t : Task) : Option Nat := if t.state = .sleeping then some t.sleepDeadlineTicks else none

/-- What is due at `now` leaves the queue. -/
def expire (generation : BitVec 16) (now : Nat) (entry : Option Nat) : Option Nat :=
  match entry with
  | none => none
  | some deadline => if 1 ≤ generation.toNat ∧ generation.toNat ≤ 10 ∧ deadline ≤ now then none else some deadline

/-- What one event does to the entry of slot `i`. -/
def queueStep (s : Scheduler) (e : SchedEvent) (i : Slot) (entry : Option Nat) : Option Nat :=
  match e with
  | .init => none
  | .terminate id => if taskGet s.tasks id = some i then none else entry
  | .adopt task => if task = i then none else entry
  | .tick now frame => if s.active && frame.isSome then expire (s.tasks i).generation now.toNat entry else entry
  | .yield now frame =>
    if s.current.isSome && s.active && frame.isSome then expire (s.tasks i).generation now.toNat entry else entry
  | .sleep ticks now frame =>
    let entry := if s.current = some i then some ((now.toNat + ticks.toNat) % 2 ^ 64) else entry
    if s.current.isSome && s.active && frame.isSome then expire (s.tasks i).generation now.toNat entry else entry
  | _ => entry

/-- The queue after a history. -/
def sleepQueue : SchedHistory → Slot → Option Nat
  | [], _ => none
  | (s, e) :: h, i => queueStep s e i (sleepQueue h i)

/-! ## One scheduling event -/

section
variable {s : Scheduler} {i : Slot} {t t' : Task}

theorem asleep_of_kept (h : t'.kept = t.kept) : t'.asleep = t.asleep := by
  simp only [Task.asleep, kept_state h, ident_sleepDeadlineTicks (kept_ident h)]

/-- Of a move only waking can be seen. -/
theorem TaskMove.asleep (h : TaskMove t t') (hstay : t.state = .sleeping → t'.state = .sleeping) : t'.asleep = t.asleep := by
  have hiff : t'.state = .sleeping ↔ t.state = .sleeping := ⟨h.sleeping, hstay⟩
  simp only [Task.asleep, hiff, ident_sleepDeadlineTicks h.ident]

theorem wakeSleepers_asleep (s : Scheduler) (now : Nat) (i : Slot) :
    ((wakeSleepers s now).tasks i).asleep = expire (s.tasks i).generation now (s.tasks i).asleep := by
  rw [wakeSleepers_tasks]
  by_cases hsleeping : (s.tasks i).state = .sleeping
  · have hentry : (s.tasks i).asleep = some (s.tasks i).sleepDeadlineTicks := if_pos hsleeping
    rw [hentry, expire]
    by_cases hscanned : (s.tasks i).Scanned
    · rw [if_pos hscanned]
      by_cases hdue : (s.tasks i).sleepDeadlineTicks ≤ now
      · have hwoken : ((s.tasks i).wake s.policy s.vsys now).state = .ready := by rw [Task.wake_state, if_pos ⟨hsleeping, hdue⟩]
        rw [if_pos ⟨hscanned.1, hscanned.2.1, hdue⟩]
        exact if_neg (by rw [hwoken]; decide)
      · rw [if_neg fun h => hdue h.2.2, Task.wake_of_not_due fun h => hdue h.2, hentry]
    · rw [if_neg hscanned, if_neg fun h => hscanned ⟨h.1, h.2.1, by rw [hsleeping]; decide⟩, hentry]
  · have hentry : (s.tasks i).asleep = none := if_neg hsleeping
    rw [hentry, expire]
    split
    · rw [Task.wake_of_not_due fun h => hsleeping h.1, hentry]
    · exact hentry

/-- Only the running task is queued. -/
theorem prepared_sleeping {now : Nat} {frame : TrapFrame} (h : ((wakeSleepers s now).tasks i).state = .sleeping) :
    ((prepared s now frame).tasks i).state = .sleeping := by
  rcases running_or_not s with ⟨c, hc, hrun⟩ | hnone
  · have hne : s.current ≠ some i := by
      rintro heq
      obtain rfl := Option.some.inj (hc.symm.trans heq)
      rw [(wakeSleepers_running s now c).2 hrun] at h
      cases h
    rw [kept_state (prepared_kept_of_ne s now frame hne), h]
  · rw [prepared_of_not_running s now frame hnone]
    exact h

/-- A decision wakes nobody. -/
theorem selectNext_sleeping {frame : TrapFrame} {pre : Bool} (h : (s.tasks i).state = .sleeping) :
    ((selectNext s frame pre).sched.tasks i).state = .sleeping := by
  have hkept : ((pickNext s s.current).1.tasks i).state = .sleeping := (kept_state ((pickNext_frame s s.current).tasks i)).trans h
  have hpicked : ∀ j, (pickNext s s.current).2 = some j → i ≠ j := by
    rintro j hj rfl
    rcases pickNext_some hj with hsel | ⟨-, hrun⟩
    · exact absurd (h.symm.trans hsel.2) (by decide)
    · exact absurd (h.symm.trans hrun) (by decide)
  rcases selectNext_outcome s frame pre with ⟨-, -, heq⟩ | ⟨c, -, -, hready, heq⟩ | ⟨j, hj, -, heq⟩ | ⟨j, hj, -, heq⟩
  · rw [heq]
    exact hkept
  · have hne : i ≠ c := by
      rintro rfl
      exact absurd (hkept.symm.trans hready) (by decide)
    rw [heq]
    simpa only [Scheduler.setTask, Function.update_of_ne hne] using hkept
  · rw [heq]
    simpa only [Scheduler.setTask, Function.update_of_ne (hpicked j hj)] using hkept
  · rw [heq]
    simpa only [switchTo, Function.update_of_ne (hpicked j hj)] using hkept

theorem doSchedule_asleep (s : Scheduler) (now : Nat) (trapFrame : Option TrapFrame) (pre : Bool) (i : Slot) :
    ((doSchedule s now trapFrame pre).sched.tasks i).asleep =
      if s.active && trapFrame.isSome then expire (s.tasks i).generation now (s.tasks i).asleep else (s.tasks i).asleep := by
  rcases doSchedule_decision s now trapFrame pre with ⟨-, heq, hnot⟩ | ⟨c, frame, -, ha, rfl, -, -, -, -, heq⟩ |
    ⟨frame, -, ha, rfl, heq⟩
  · rw [heq, if_neg]
    rcases hnot with ha | rfl
    · simp [ha]
    · simp
  · rw [heq, ha]
    exact (asleep_of_kept ((onTick_frame (wakeSleepers s now) c 1).tasks i)).trans (wakeSleepers_asleep s now i)
  · rw [heq, ha]
    refine Eq.trans ?_ (wakeSleepers_asleep s now i)
    refine TaskMove.asleep ((prepared_move s now frame i).trans (selectNext_move _ frame pre i)) fun hsleeping => ?_
    exact selectNext_sleeping (prepared_sleeping hsleeping)

end

/-! ## Runs -/

theorem taskSet_asleep {tasks : TaskTable} {j : Slot} {t : Task} (hstate : t.state = (tasks j).state)
    (hdeadline : t.sleepDeadlineTicks = (tasks j).sleepDeadlineTicks) (i : Slot) :
    (Function.update tasks j t i).asleep = (tasks i).asleep := by
  by_cases hi : i = j
  · subst hi
    rw [Function.update_self, Task.asleep, Task.asleep, hstate, hdeadline]
  · rw [Function.update_of_ne hi]

/-- A slot whose task is created, ended or adopted has nobody asleep. -/
theorem update_asleep_none {tasks : TaskTable} {j : Slot} {t : Task} (ht : t.state ≠ .sleeping) (i : Slot) :
    (Function.update tasks j t i).asleep = if j = i then none else (tasks i).asleep := by
  by_cases hi : j = i
  · subst hi
    rw [Function.update_self, if_pos rfl]
    exact if_neg ht
  · rw [Function.update_of_ne (Ne.symm hi), if_neg hi]

theorem asleep_of_free {tasks : TaskTable} {j : Slot} (hfree : freeTaskSlot tasks = some j) : (tasks j).asleep = none := by
  rcases freeTaskSlot_eq_some hfree with h | h <;> exact if_neg (by rw [h]; decide)

theorem taskSet_generation {tasks : TaskTable} {j : Slot} {t : Task} (h : t.generation = (tasks j).generation) (i : Slot) :
    (Function.update tasks j t i).generation = (tasks i).generation := by
  by_cases hi : i = j
  · subst hi
    rw [Function.update_self, h]
  · rw [Function.update_of_ne hi]

theorem terminate_asleep (s : Scheduler) (id : TaskId) (i : Slot) :
    ((terminate s id).tasks i).asleep = if taskGet s.tasks id = some i then none else (s.tasks i).asleep := by
  unfold terminate taskTerminate
  cases hget : taskGet s.tasks id with
  | none => rfl
  | some j =>
    have hdead : (s.tasks j).terminate.state ≠ .sleeping := by
      intro h
      cases h
    simp only [update_asleep_none hdead, Option.some.injEq]

/-- The sleep of the current task, before its own scheduling. -/
theorem sleepUntil_asleep {s : Scheduler} {c : Slot} (hc : s.current = some c) (now ticks : Nat) (i : Slot) :
    ((s.setTask c ((s.tasks c).sleepUntil now ticks)).tasks i).asleep =
      if s.current = some i then some ((now + ticks) % 2 ^ 64) else (s.tasks i).asleep := by
  by_cases hi : c = i
  · subst hi
    simp only [if_pos hc, Scheduler.setTask, Function.update_self]
    exact if_pos rfl
  · have hother : s.current ≠ some i := fun h => hi (Option.some.inj (hc.symm.trans h))
    simp only [if_neg hother, Scheduler.setTask, Function.update_of_ne (Ne.symm hi)]

/-- One event does to the tasks what it does to the queue. -/
theorem schedStep_asleep (s : Scheduler) (e : SchedEvent) (i : Slot) :
    ((schedStep s e).tasks i).asleep = queueStep s e i (s.tasks i).asleep := by
  cases e with
  | init =>
    show ((schedulerInit s).tasks i).asleep = none
    rw [schedulerInit_tasks]
    rfl
  | create serviceId domainId entryPc stackTop =>
    show ((taskCreate s.tasks serviceId domainId entryPc stackTop).1 i).asleep = (s.tasks i).asleep
    unfold taskCreate
    cases hfree : freeTaskSlot s.tasks with
    | none => rfl
    | some j =>
      rw [update_asleep_none (fun h => by cases h)]
      split
      · next hj => rw [← hj, asleep_of_free hfree]
      · rfl
  | terminate id => exact terminate_asleep s id i
  | setWeight task weight =>
    simp only [schedStep, schedCall, taskSetWeight]
    refine taskSet_asleep ?_ ?_ i <;> rfl
  | setSlice task sliceTicks =>
    simp only [schedStep, schedCall, taskSetSlice]
    refine taskSet_asleep ?_ ?_ i <;> rfl
  | setPolicy policy =>
    simp only [schedStep, schedCall, setPolicy, policyInit]
    split <;> rfl
  | adopt task =>
    simp only [schedStep, schedCall, adopt, Scheduler.setTask]
    exact update_asleep_none (fun h => by cases h) i
  | tick now frame => exact doSchedule_asleep s now.toNat frame true i
  | yield now frame =>
    simp only [schedStep, schedCall, schedulerYield, queueStep]
    cases hc : s.current with
    | none => rfl
    | some c =>
      have hsame : ((s.setTask c (s.tasks c).dropSlice).tasks i).asleep = (s.tasks i).asleep := by
        refine taskSet_asleep ?_ ?_ i <;> rfl
      have hgeneration : ((s.setTask c (s.tasks c).dropSlice).tasks i).generation = (s.tasks i).generation := by
        refine taskSet_generation ?_ i
        rfl
      refine (doSchedule_asleep _ now.toNat frame false i).trans ?_
      rw [hsame, hgeneration]
      rfl
  | sleep ticks now frame =>
    simp only [schedStep, schedCall, schedulerSleepCurrent, queueStep]
    cases hc : s.current with
    | none => rfl
    | some c =>
      have hgeneration : ((s.setTask c ((s.tasks c).sleepUntil now.toNat ticks.toNat)).tasks i).generation = (s.tasks i).generation := by
        refine taskSet_generation ?_ i
        rfl
      refine (doSchedule_asleep _ now.toNat frame false i).trans ?_
      rw [sleepUntil_asleep hc, hgeneration, hc]
      rfl
  | _ => rfl

/-- **A sleep lasts until the first scheduling event at or after its deadline**: in every run the sleeping tasks and their deadlines
are the queue that the history of calls makes up. A task sleeps exactly as long as its entry is there, whatever the policy
does, however tasks are switched, and past its deadline only while no scheduling event comes or its generation is not one of 1 to 10. -/
theorem sleep_queue_exact {h : SchedHistory} {s : Scheduler} (r : Run anyStep schedStep schedulerBoot h s) (i : Slot) :
    (s.tasks i).asleep = sleepQueue h i := by
  refine r.historyInvariant (I := fun h s => (s.tasks i).asleep = sleepQueue h i) ?_ ?_
  · rfl
  · intro h s e _ hs
    rw [schedStep_asleep, hs, sleepQueue]

/-- A task sleeps from 10 to 15 while another one runs, and a tick comes at 12. -/
def napRun : SchedHistory × Scheduler :=
  traceFrom schedStep [] schedulerBoot
    [.init, .create 10 100 0x1000 0x2000, .create 20 200 0x3000 0x4000, .start, .tick 1 (some (initialContext 0 0).restore),
      .sleep 5 10 (some (initialContext 0 0).restore), .tick 12 (some (initialContext 0 0).restore)]

theorem sleep_queue_exact_nap : (napRun.2.tasks firstSlot).asleep = some 15 := by
  have r : Run anyStep schedStep schedulerBoot napRun.1 napRun.2 := Run.start.trace (admits_anyStep _ _)
  have hqueue : sleepQueue napRun.1 firstSlot = some 15 := by decide +kernel
  generalize napRun.1 = h, napRun.2 = s at r hqueue ⊢
  exact (sleep_queue_exact r _).trans hqueue

end Lettuce
