import LettuceKernel.SchedulerDecision
/-!
# At most one task runs, and it is the current one

`do_schedule` moves the running task back to READY before it asks the policy, so at a decision
no task is RUNNING; the three places that write RUNNING (scheduler.c:162, :171, :191) then
write it to one READY task, which is or becomes `g_current_task`. Terminating the current
task clears the pointer, and a creation takes a slot whose task is dead.

The runs here are those of the scheduler and task interface; `adopt`, the hand-over of the
test harness in main.c, writes RUNNING itself and is left out.
-/

namespace Lettuce

open Runs

/-- The calls of the interface. -/
def InterfaceCall (_ : Scheduler) : SchedEvent → Prop
  | .adopt _ => False
  | _ => True

structure SoleRunner (s : Scheduler) : Prop where
  running : ∀ i, (s.tasks i).state = .running → s.current = some i
  current : ∀ c, s.current = some c → (s.tasks c).Live

/-- What an event leaves RUNNING was RUNNING and no decision was made, or was READY when one was. -/
def EntersFromReady (s : Scheduler) (e : SchedEvent) : Prop :=
  ∀ i, ((schedStep s e).tasks i).state = .running →
    ((s.tasks i).state = .running ∧ decisionPoint s e = none) ∨
      ∃ p, decisionPoint s e = some p ∧ (p.tasks i).state = .ready

section
variable {s : Scheduler}

/-- At a decision nothing is RUNNING. -/
theorem SoleRunner.prepared_ne_running (h : SoleRunner s) (now : Nat) (frame : TrapFrame) (i : Slot) :
    ((prepared s now frame).tasks i).state ≠ .running := by
  intro hrun
  rcases running_or_not s with ⟨c, hc, hrunning⟩ | hno
  · rw [prepared_of_running s now frame hc hrunning, requeue_tasks] at hrun
    by_cases hi : i = c
    · rw [if_pos hi, kept_state (onTaskReady_kept _ _ _)] at hrun
      cases hrun
    · rw [if_neg hi, kept_state ((onTick_frame _ c 1).tasks i), wakeSleepers_running] at hrun
      exact hi (Option.some.inj ((h.running i hrun).symm.trans hc))
  · rw [prepared_of_not_running s now frame hno, wakeSleepers_running] at hrun
    exact hno i (h.running i hrun) hrun

/-- From a state with nothing RUNNING the selection runs one READY task, the current one. -/
theorem selectNext_running (hno : ∀ i, (s.tasks i).state ≠ .running) (frame : TrapFrame) (pre : Bool) {i : Slot}
    (hrun : ((selectNext s frame pre).sched.tasks i).state = .running) :
    (s.tasks i).state = .ready ∧ (selectNext s frame pre).sched.current = some i := by
  have hf := pickNext_frame s s.current
  have hstate : ∀ k, ((pickNext s s.current).1.tasks k).state = (s.tasks k).state := fun k => kept_state (hf.tasks k)
  -- a table in which only slot `j` may have been written
  have hset : ∀ j t, (Function.update (pickNext s s.current).1.tasks j t i).state = .running → i = j := by
    intro j t h
    by_contra hij
    rw [Function.update_of_ne hij, hstate] at h
    exact hno i h
  have hready : ∀ j, (pickNext s s.current).2 = some j → (s.tasks j).state = .ready := by
    intro j hj
    rcases pickNext_some hj with hsel | ⟨-, hrunning⟩
    · exact hsel.2
    · exact absurd hrunning (hno j)
  rcases selectNext_outcome s frame pre with ⟨-, -, heq⟩ | ⟨c, -, hc, hr, heq⟩ | ⟨j, hj, hcur, heq⟩ | ⟨j, hj, -, heq⟩
  · rw [heq] at hrun
    exact absurd ((hstate i).symm.trans hrun) (hno i)
  · rw [heq] at hrun ⊢
    obtain rfl := hset _ _ hrun
    exact ⟨(hstate i).symm.trans hr, hf.current.trans hc⟩
  · rw [heq] at hrun ⊢
    obtain rfl := hset _ _ hrun
    exact ⟨hready i hj, hf.current.trans hcur⟩
  · rw [heq] at hrun ⊢
    obtain rfl := hset _ _ hrun
    exact ⟨hready i hj, rfl⟩

/-- `do_schedule` runs the task that ran before without a decision, or one that was READY at it. -/
theorem SoleRunner.doSchedule_running (h : SoleRunner s) (now : Nat) (trapFrame : Option TrapFrame) (pre : Bool) {i : Slot}
    (hrun : ((doSchedule s now trapFrame pre).sched.tasks i).state = .running) :
    (doSchedule s now trapFrame pre).sched.current = some i ∧
      (((s.tasks i).state = .running ∧ decisionState s now trapFrame pre = none) ∨
        ∃ p, decisionState s now trapFrame pre = some p ∧ (p.tasks i).state = .ready) := by
  rcases doSchedule_decision s now trapFrame pre with ⟨hd, heq, -⟩ | ⟨c, frame, hd, -, -, hc, hrunning, -, -, heq⟩ |
    ⟨frame, hd, -, -, heq⟩
  · rw [heq] at hrun ⊢
    exact ⟨h.running i hrun, Or.inl ⟨hrun, hd⟩⟩
  · have hf := onTick_frame (wakeSleepers s now) c 1
    rw [heq] at hrun ⊢
    simp only [kept_state (hf.tasks i), wakeSleepers_running] at hrun
    refine ⟨?_, Or.inl ⟨hrun, hd⟩⟩
    simp only [hf.current, wakeSleepers_current]
    exact h.running i hrun
  · rw [heq] at hrun ⊢
    obtain ⟨hready, hcur⟩ := selectNext_running (h.prepared_ne_running now frame) frame pre hrun
    exact ⟨hcur, Or.inr ⟨_, hd, hready⟩⟩

theorem SoleRunner.doSchedule (h : SoleRunner s) (now : Nat) (trapFrame : Option TrapFrame) (pre : Bool) :
    SoleRunner (doSchedule s now trapFrame pre).sched :=
  ⟨fun _ hrun => (h.doSchedule_running now trapFrame pre hrun).1, doSchedule_current_live h.current now trapFrame pre⟩

/-- A write that does not bring a task to a state leaves only tasks there that were there. -/
theorem state_of_update {tasks : TaskTable} {i j : Slot} {t : Task} {st : TaskState}
    (h : (Function.update tasks j t i).state = st) (ht : t.state = st → (tasks j).state = st) : (tasks i).state = st :=
  update_related (R := fun t t' => t'.state = st → t.state = st) (fun _ => id) ht i h

/-- Rewriting a task without giving it the processor. -/
theorem SoleRunner.setTask (h : SoleRunner s) {i : Slot} {t : Task} (hl : (s.tasks i).Live → t.Live)
    (hr : t.state = .running → (s.tasks i).state = .running) : SoleRunner (s.setTask i t) := by
  refine ⟨fun j hj => ?_, fun c hc => ?_⟩
  · exact h.running j (state_of_update hj hr)
  · have hlive := h.current c hc
    by_cases hci : c = i
    · subst hci
      simp only [Scheduler.setTask, Function.update_self]
      exact hl hlive
    · simpa only [Scheduler.setTask, Function.update_of_ne hci] using hlive

/-- A creation never takes the slot of the current task. -/
theorem SoleRunner.free_ne_current (h : SoleRunner s) {i : Slot} (hi : freeTaskSlot s.tasks = some i) :
    s.current ≠ some i := by
  intro hc
  have hlive := h.current i hc
  rcases freeTaskSlot_eq_some hi with hf | hf
  · exact hlive.1 hf
  · exact hlive.2 hf

theorem SoleRunner.create (h : SoleRunner s) (serviceId : ServiceId) (domainId : DomainId) (entryPc stackTop : Reg) :
    SoleRunner { s with tasks := (taskCreate s.tasks serviceId domainId entryPc stackTop).1 } := by
  unfold taskCreate
  split
  · exact h
  · refine h.setTask (fun _ => ⟨?_, ?_⟩) ?_
    · simp
    · simp
    · simp

theorem SoleRunner.terminate (h : SoleRunner s) (id : TaskId) : SoleRunner (terminate s id) := by
  rcases terminate_cases s id with heq | ⟨i, -, heq⟩
  · rw [heq]; exact h
  · rw [heq]
    refine ⟨fun j hj => ?_, fun c hc => ?_⟩
    · have hji : j ≠ i := by
        rintro rfl
        simp only [Function.update_self] at hj
        cases hj
      simp only [Function.update_of_ne hji] at hj
      have hcur := h.running j hj
      simp only [hcur, Option.some.injEq, if_neg hji]
    · dsimp only at hc
      split at hc
      · cases hc
      · rename_i hne
        have hci : c ≠ i := by rintro rfl; exact hne hc
        simp only [Function.update_of_ne hci]
        exact h.current c hc

theorem SoleRunner.init (s : Scheduler) : SoleRunner (schedulerInit s) := by
  refine ⟨fun i hi => ?_, fun c hc => ?_⟩
  · rw [schedulerInit_tasks] at hi; cases hi
  · rw [schedulerInit_current] at hc; cases hc

theorem SoleRunner.setPolicy (h : SoleRunner s) (policy : Policy) : SoleRunner (setPolicy s policy) := by
  cases policy with
  | rr => exact ⟨h.running, h.current⟩
  | eevdf => exact ⟨h.running, h.current⟩

/-- What `yield` and `sleep` write before they schedule. -/
theorem SoleRunner.called (h : SoleRunner s) {e : SchedEvent} {k : ScheduleCall} (hk : scheduleCall s e = some k) :
    SoleRunner k.sched := by
  rcases scheduleCall_sched hk with heq | ⟨c, -, heq | ⟨now, ticks, heq⟩⟩
  · rw [heq]
    exact h
  · rw [heq]
    exact h.setTask id id
  · rw [heq]
    refine h.setTask (fun _ => ⟨?_, ?_⟩) ?_
    · simp [Task.sleepUntil]
    · simp [Task.sleepUntil]
    · simp [Task.sleepUntil]

/-- What runs when the call begins ran before the event. -/
theorem scheduleCall_running {e : SchedEvent} {k : ScheduleCall} (hk : scheduleCall s e = some k) {i : Slot}
    (hrun : (k.sched.tasks i).state = .running) : (s.tasks i).state = .running := by
  rcases scheduleCall_sched hk with heq | ⟨c, -, heq | ⟨now, ticks, heq⟩⟩
  · rwa [heq] at hrun
  · rw [heq] at hrun
    exact state_of_update hrun id
  · rw [heq] at hrun
    exact state_of_update hrun (by simp [Task.sleepUntil])

theorem SoleRunner.step (h : SoleRunner s) {e : SchedEvent} (he : InterfaceCall s e) : SoleRunner (schedStep s e) := by
  by_cases hscheduling : IsScheduling s e
  · rcases schedStep_call hscheduling with ⟨k, hk, hstep, -⟩ | ⟨-, -, hstep, -⟩
    · rw [hstep]
      exact (h.called hk).doSchedule k.now k.frame k.isPreemption
    · rw [hstep]
      exact h
  cases e with
  | init => exact SoleRunner.init s
  | create serviceId domainId entryPc stackTop => exact h.create serviceId domainId entryPc stackTop
  | terminate id => exact h.terminate id
  | setWeight task weight => exact h.setTask id id
  | setSlice task sliceTicks => exact h.setTask id id
  | setPolicy policy => exact h.setPolicy policy
  | setPreemptLimit maxPreempts => exact ⟨h.running, h.current⟩
  | start => exact ⟨h.running, h.current⟩
  | stop => exact ⟨h.running, h.current⟩
  | adopt task => exact he.elim
  | _ => exact absurd trivial hscheduling

/-- Only a decision makes a task RUNNING. -/
theorem SoleRunner.entersFromReady (h : SoleRunner s) {e : SchedEvent} (he : InterfaceCall s e) : EntersFromReady s e := by
  intro i hrun
  by_cases hscheduling : IsScheduling s e
  · rcases schedStep_call hscheduling with ⟨k, hk, hstep, hdecision⟩ | ⟨-, -, hstep, hdecision⟩
    · rw [hstep] at hrun
      rw [hdecision]
      rcases ((h.called hk).doSchedule_running k.now k.frame k.isPreemption hrun).2 with ⟨hr, hd⟩ | hready
      · exact Or.inl ⟨scheduleCall_running hk hr, hd⟩
      · exact Or.inr hready
    · rw [hstep] at hrun
      exact Or.inl ⟨hrun, hdecision⟩
  -- an event without a decision point does not write RUNNING
  cases e with
  | init =>
    rw [show (schedStep s .init).tasks = taskInit from schedulerInit_tasks s] at hrun
    cases hrun
  | create serviceId domainId entryPc stackTop =>
    simp only [schedStep, schedCall, taskCreate] at hrun
    split at hrun
    · exact Or.inl ⟨hrun, rfl⟩
    · exact Or.inl ⟨state_of_update hrun (by simp), rfl⟩
  | terminate id =>
    simp only [schedStep, schedCall] at hrun
    rcases terminate_cases s id with heq | ⟨j, -, heq⟩
    · rw [heq] at hrun
      exact Or.inl ⟨hrun, rfl⟩
    · rw [heq] at hrun
      exact Or.inl ⟨state_of_update hrun (by simp [Task.terminate]), rfl⟩
  | setWeight task weight => exact Or.inl ⟨state_of_update hrun id, rfl⟩
  | setSlice task sliceTicks => exact Or.inl ⟨state_of_update hrun id, rfl⟩
  | setPolicy policy => cases policy <;> exact Or.inl ⟨hrun, rfl⟩
  | setPreemptLimit maxPreempts => exact Or.inl ⟨hrun, rfl⟩
  | start => exact Or.inl ⟨hrun, rfl⟩
  | stop => exact Or.inl ⟨hrun, rfl⟩
  | adopt task => exact he.elim
  | _ => exact absurd trivial hscheduling

end

/-- **At most one task runs, and it is the current one**: in every state reached from
`lettuce_scheduler_init` through the interface, with any arguments, the current task is live, a
RUNNING task is the current one, a creation takes another slot, and every call makes a task
RUNNING only if it was READY at the decision. -/
theorem single_running_task (s₀ : Scheduler) {h : SchedHistory} {s : Scheduler}
    (r : Run InterfaceCall schedStep (schedulerInit s₀) h s) :
    (∀ i j, (s.tasks i).state = .running → (s.tasks j).state = .running → i = j) ∧ SoleRunner s ∧
      (∀ i, freeTaskSlot s.tasks = some i → s.current ≠ some i) ∧ ∀ e, InterfaceCall s e → EntersFromReady s e := by
  have hs : SoleRunner s := r.invariant (SoleRunner.init s₀) fun _ _ he hs => hs.step he
  refine ⟨fun i j hi hj => ?_, hs, fun i => hs.free_ne_current, fun e => hs.entersFromReady⟩
  exact Option.some.inj ((hs.running i hi).symm.trans (hs.running j hj))

/-- Two tasks, started and ticked: the first one runs and is current. -/
def firstTickRun : SchedHistory × Scheduler :=
  traceFrom schedStep [] (schedulerInit schedulerBoot)
    [.create 10 100 0x1000 0x2000, .create 20 200 0x3000 0x4000, .start, .tick 0 (some (initialContext 0 0).restore)]

theorem single_running_task_tick :
    (firstTickRun.2.tasks firstSlot).state = .running ∧ firstTickRun.2.current = some firstSlot := by
  have r : Run InterfaceCall schedStep (schedulerInit schedulerBoot) firstTickRun.1 firstTickRun.2 :=
    Run.start.trace ⟨trivial, trivial, trivial, trivial, trivial⟩
  have hrun : (firstTickRun.2.tasks firstSlot).state = .running := by decide +kernel
  exact ⟨hrun, (single_running_task schedulerBoot r).2.1.running _ hrun⟩

end Lettuce
