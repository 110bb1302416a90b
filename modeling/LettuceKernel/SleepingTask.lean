import LettuceKernel.SingleRunning
import LettuceKernel.SchedulerVisibility
/-!
# Sleeping on the processor

`lettuce_scheduler_sleep_current` marks the current task SLEEPING and then calls `do_schedule`,
which may find nothing to switch to: the scheduler is inactive, the frame is null, or no task
is runnable. It then returns to the task that has just gone to sleep (scheduler.c:104, :158-166
knows only a READY one), which goes on running while it counts as asleep.

`FindsSuccessor` is the condition on a sleep call that rules this out. In runs that meet it the
current task is never SLEEPING.
-/

namespace Lettuce

open Runs

/-- A `sleep_current` call for `task` that ends at timer value `deadline`. -/
def SleepsUntil (task : Slot) (deadline : Nat) (s : Scheduler) : SchedEvent → Prop
  | .sleep ticks now _ => s.current = some task ∧ now.toNat + ticks.toNat = deadline ∧ deadline < 2 ^ 64
  | _ => False

/-- The last event of the run is a sleep call of `task`, or a scheduling event before the
deadline of an earlier one. -/
def InSleepOf (task : Slot) : SchedHistory → Prop
  | [] => False
  | (s, e) :: h => ∃ deadline, SleepsUntil task deadline s e ∨
      ((∃ p ∈ h, SleepsUntil task deadline p.1 p.2) ∧
        ∃ now frame, e.scheduling = some (now, frame) ∧ now.toNat < deadline)

/-- A task that sleeps is not the current one. -/
def SleeperOffCpu (h : SchedHistory) (s : Scheduler) : Prop :=
  ∀ task, InSleepOf task h → ¬ ((s.tasks task).state = .sleeping ∧ s.current = some task)

/-- A sleep call with a current task finds the scheduler active, has a frame, and there is a task to run,
with no EEVDF clock at the sentinel of the scan. -/
def FindsSuccessor (s : Scheduler) : SchedEvent → Prop
  | .sleep ticks now frame => ∀ c, s.current = some c → s.active = true ∧ frame ≠ none ∧
    ∃ i, ((s.setTask c ((s.tasks c).sleepUntil now.toNat ticks.toNat)).tasks i).Runnable now.toNat ∧
      (s.policy = .eevdf → (s.tasks i).vruntime < uint64Max ∧ s.vsys < uint64Max)
  | _ => True

/-- The current task is not asleep. -/
def Awake (s : Scheduler) : Prop := ∀ c, s.current = some c → (s.tasks c).state ≠ .sleeping

section
variable {s : Scheduler}

/-- Whatever a decision picks is RUNNING. -/
theorem selectNext_awake (h : Awake s) (frame : TrapFrame) (pre : Bool) : Awake (selectNext s frame pre).sched := by
  have hf := pickNext_frame s s.current
  intro c hc
  rcases selectNext_outcome s frame pre with ⟨-, -, heq⟩ | ⟨j, -, hj, -, heq⟩ | ⟨j, -, hj, heq⟩ | ⟨j, -, -, heq⟩
  · rw [heq] at hc ⊢
    have hstate := kept_state (hf.tasks c)
    simp only [hstate]
    exact h c (hf.current ▸ hc)
  · rw [heq] at hc ⊢
    obtain rfl : c = j := Option.some.inj ((hf.current ▸ hc).symm.trans hj)
    simp [Scheduler.setTask, Task.continueRunning]
  · rw [heq] at hc ⊢
    obtain rfl : c = j := Option.some.inj ((hf.current ▸ hc).symm.trans hj)
    simp [Scheduler.setTask, Task.continueRunning]
  · rw [heq] at hc ⊢
    cases hc
    simp [switchTo]

theorem Awake.doSchedule (h : Awake s) (now : Nat) (trapFrame : Option TrapFrame) (pre : Bool) :
    Awake (doSchedule s now trapFrame pre).sched := by
  have hwoken : ∀ c, s.current = some c → ((wakeSleepers s now).tasks c).state ≠ .sleeping :=
    fun c hc hs => h c hc ((wakeSleepers_move s now c).sleeping hs)
  rcases doSchedule_decision s now trapFrame pre with ⟨-, heq, -⟩ | ⟨c, frame, -, -, -, hc, -, -, -, heq⟩ |
    ⟨frame, -, -, -, heq⟩
  · rw [heq]; exact h
  · have hf := onTick_frame (wakeSleepers s now) c 1
    rw [heq]
    intro c' hc'
    simp only [kept_state (hf.tasks c')]
    exact hwoken c' (by simpa using hf.current.symm.trans hc')
  · rw [heq]
    apply selectNext_awake
    intro c hc hs
    rw [(prepared_mech s now frame).1] at hc
    exact hwoken c hc ((prepared_move s now frame c).sleeping hs)

theorem wakeSleepers_vruntime_lt (now : Nat) {i : Slot} (hv : (s.tasks i).vruntime < uint64Max)
    (hsys : s.policy = .eevdf → s.vsys < uint64Max) : ((wakeSleepers s now).tasks i).vruntime < uint64Max := by
  rw [wakeSleepers_tasks]
  split
  · unfold Task.wake
    split
    · exact onTaskWake_vruntime (t := { s.tasks i with state := .ready }) hv hsys
    · exact hv
  · exact hv

/-- With nothing RUNNING and something runnable, an active `do_schedule` ends with a RUNNING current task. -/
theorem doSchedule_runs (ha : s.active = true) (hno : ∀ c, s.current = some c → (s.tasks c).state ≠ .running) {now : Nat}
    {i : Slot} (hi : (s.tasks i).Runnable now)
    (hclock : s.policy = .eevdf → (s.tasks i).vruntime < uint64Max ∧ s.vsys < uint64Max) (frame : TrapFrame) (pre : Bool) :
    ∃ j, (doSchedule s now (some frame) pre).sched.current = some j ∧
      ((doSchedule s now (some frame) pre).sched.tasks j).state = .running := by
  have heq : doSchedule s now (some frame) pre = selectNext (wakeSleepers s now) frame pre := by
    rcases doSchedule_decision s now (some frame) pre with ⟨-, -, hidle⟩ | ⟨c, -, -, -, -, hc, hrun, -⟩ |
      ⟨frame', -, -, hframe, heq⟩
    · rcases hidle with hoff | hnull
      · rw [ha] at hoff; cases hoff
      · cases hnull
    · exact absurd hrun (hno c hc)
    · cases hframe
      rw [heq, prepared_of_not_running s now frame hno]
  have hfound : (pickNext (wakeSleepers s now) (wakeSleepers s now).current).2.isSome := by
    refine pickNext_isSome ((wakeSleepers_selectable s now i).2 hi) (fun hp => ?_) _
    rw [wakeSleepers_policy] at hp
    exact wakeSleepers_vruntime_lt now (hclock hp).1 fun hp => (hclock hp).2
  rw [heq]
  rcases selectNext_outcome (wakeSleepers s now) frame pre with ⟨hnone, -⟩ | ⟨c, hnone, -⟩ | ⟨j, -, hcur, hout⟩ |
    ⟨j, -, -, hout⟩
  · rw [hnone] at hfound; cases hfound
  · rw [hnone] at hfound; cases hfound
  · rw [hout]
    refine ⟨j, (pickNext_frame _ _).current.trans hcur, ?_⟩
    simp [Scheduler.setTask, Task.continueRunning]
  · rw [hout]
    exact ⟨j, rfl, by simp [switchTo]⟩

/-- A sleep call that finds a successor hands the processor on. -/
theorem sleep_awake {ticks now : BitVec 64} {frame : Option TrapFrame} (hok : FindsSuccessor s (.sleep ticks now frame)) :
    Awake (schedulerSleepCurrent s ticks now frame).sched := by
  unfold schedulerSleepCurrent
  split
  · rename_i hnone
    intro c hc
    rw [hnone] at hc
    cases hc
  · rename_i c hc
    obtain ⟨hactive, hframe, i, hrun, hclock⟩ := hok c hc
    obtain ⟨tf, rfl⟩ := Option.ne_none_iff_exists'.1 hframe
    have hasleep : ∀ c', (s.setTask c ((s.tasks c).sleepUntil now.toNat ticks.toNat)).current = some c' →
        ((s.setTask c ((s.tasks c).sleepUntil now.toNat ticks.toNat)).tasks c').state ≠ .running := by
      intro c' hc'
      obtain rfl : c' = c := Option.some.inj (hc'.symm.trans hc)
      simp [Scheduler.setTask, Task.sleepUntil]
    have hvr : ((s.setTask c ((s.tasks c).sleepUntil now.toNat ticks.toNat)).tasks i).vruntime = (s.tasks i).vruntime := by
      by_cases hi : i = c
      · subst hi; simp [Scheduler.setTask, Task.sleepUntil]
      · simp [Scheduler.setTask, hi]
    obtain ⟨j, hcur, hstate⟩ := doSchedule_runs (s := s.setTask c ((s.tasks c).sleepUntil now.toNat ticks.toNat)) hactive
      hasleep hrun (by rw [hvr]; exact hclock) tf false
    intro c' hc'
    obtain rfl : c' = j := Option.some.inj (hc'.symm.trans hcur)
    rw [hstate]
    simp

/-- Rewriting a task without putting it to sleep. -/
theorem Awake.setTask (h : Awake s) {i : Slot} {t : Task} (ht : t.state = .sleeping → (s.tasks i).state = .sleeping) :
    Awake (s.setTask i t) := by
  intro c hc hs
  exact h c hc (state_of_update hs ht)

theorem Awake.step (h : Awake s) {e : SchedEvent} (he : InterfaceCall s e) (hok : FindsSuccessor s e) :
    Awake (schedStep s e) := by
  cases e with
  | init =>
    intro c hc
    rw [show (schedStep s .init).current = none from schedulerInit_current s] at hc
    cases hc
  | create serviceId domainId entryPc stackTop =>
    simp only [schedStep, schedCall, taskCreate]
    split
    · exact h
    · exact h.setTask (by simp)
  | terminate id =>
    simp only [schedStep, schedCall]
    rcases terminate_cases s id with heq | ⟨i, -, heq⟩
    · rw [heq]; exact h
    · rw [heq]
      intro c hc
      dsimp only at hc
      split at hc
      · cases hc
      · exact h.setTask (t := (s.tasks i).terminate) (by simp [Task.terminate]) c hc
  | setWeight task weight => exact h.setTask id
  | setSlice task sliceTicks => exact h.setTask id
  | setPolicy policy => cases policy <;> exact h
  | setPreemptLimit maxPreempts => exact h
  | start => exact h
  | stop => exact h
  | adopt task => exact he.elim
  | tick now frame => exact h.doSchedule now.toNat frame true
  | yield now frame =>
    show Awake (schedulerYield s now frame).sched
    unfold schedulerYield
    split
    · exact h
    · exact Awake.doSchedule (h.setTask (t := Task.dropSlice _) id) now.toNat frame false
  | sleep ticks now frame => exact sleep_awake hok

end

/-- **A sleeping task does not keep the processor** in any run in which every sleep call of a current
task finds the scheduler active, a frame and a task to run. -/
theorem sleeping_task_leaves_cpu (s₀ : Scheduler) {h : SchedHistory} {s : Scheduler}
    (r : Run InterfaceCall schedStep (schedulerInit s₀) h s) (hok : ∀ p ∈ h, FindsSuccessor p.1 p.2) :
    SleeperOffCpu h s := by
  have hawake : Awake s := by
    induction r with
    | start =>
      intro c hc
      rw [schedulerInit_current] at hc
      cases hc
    | next r e he ih =>
      exact (ih fun p hp => hok p (List.mem_cons_of_mem _ hp)).step he (hok _ (List.mem_cons_self ..))
  rintro task - ⟨hs, hc⟩
  exact hawake task hc hs

/-- Two tasks; the first one sleeps for 5 ticks and the second takes over. -/
def sleepCalls : List SchedEvent :=
  [.create 10 100 0x1000 0x2000, .create 20 200 0x3000 0x4000, .start, .tick 0 (some (initialContext 0 0).restore),
    .sleep 5 0 (some (initialContext 0 0).restore)]

theorem sleeping_task_leaves_cpu_two :
    SleeperOffCpu (traceFrom schedStep [] (schedulerInit schedulerBoot) sleepCalls).1
      (traceFrom schedStep [] (schedulerInit schedulerBoot) sleepCalls).2 := by
  have r : Run InterfaceCall schedStep (schedulerInit schedulerBoot) _ _ :=
    Run.start.trace (show Admits InterfaceCall schedStep _ sleepCalls from
      ⟨trivial, trivial, trivial, trivial, trivial, trivial⟩)
  have hok : Admits FindsSuccessor schedStep (schedulerInit schedulerBoot) sleepCalls := by
    refine ⟨trivial, trivial, trivial, trivial, fun c hc => ⟨by decide +kernel, nofun, 1, ?_, ?_⟩, trivial⟩
    · obtain rfl : c = firstSlot := by
        have h0 : (traceFrom schedStep [] (schedulerInit schedulerBoot) (sleepCalls.take 4)).2.current = some firstSlot := by
          decide +kernel
        exact Option.some.inj (hc.symm.trans h0)
      decide +kernel
    · exact fun hp => absurd hp (by decide +kernel)
  exact sleeping_task_leaves_cpu schedulerBoot r (hok.history (by simp))

/-- A single task that sleeps. -/
def loneSleepCalls : List SchedEvent :=
  [.create 10 100 0x1000 0x2000, .start, .tick 0 (some (initialContext 0 0).restore),
    .sleep 5 0 (some (initialContext 0 0).restore)]

/-- It stays on the processor. -/
theorem lone_sleeper_keeps_cpu :
    ¬ ∀ s₀ h s, Run InterfaceCall schedStep (schedulerInit s₀) h s → SleeperOffCpu h s := by
  intro hall
  have r : Run InterfaceCall schedStep (schedulerInit schedulerBoot) _ _ :=
    Run.start.trace (show Admits InterfaceCall schedStep _ loneSleepCalls from
      ⟨trivial, trivial, trivial, trivial, trivial⟩)
  refine hall _ _ _ r firstSlot ⟨5, Or.inl ⟨?_, by decide, by decide⟩⟩ ⟨?_, ?_⟩
  · decide +kernel
  · decide +kernel
  · decide +kernel

end Lettuce
