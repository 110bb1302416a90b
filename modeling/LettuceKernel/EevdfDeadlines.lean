import LettuceKernel.EevdfClock
import LettuceKernel.SingleRunning
/-!
# Recorded deadlines

Eligible tasks compete by the recorded `vdeadline`. Requeueing and waking record the deadline of the
task they make READY (`Task.align`), and a picked task gets a new one (`Task.renew`). A creation
makes a task READY too, but `lettuce_task_create` (task.c:80) leaves `vruntime` and `vdeadline` at 0, and
the guard "Calculate deadline if not yet computed" (eevdf.c:141) asks for `vdeadline < vruntime`, which
0 and 0 do not meet. So a READY task has its true deadline exactly if it has been picked since its
creation; before that it competes with deadline 0.
-/

namespace Lettuce

open Runs

/-- The calls that leave weights and slices at their creation values. -/
def DefaultCall (s : Scheduler) : SchedEvent → Prop
  | .setWeight _ _ => False
  | .setSlice _ _ => False
  | e => EevdfCall s e

/-- `vruntime + requested_slice * 65536 / weight`, as a `uint64_t`. -/
def Task.trueDeadline (t : Task) : Nat := (t.vruntime + t.requestedSliceTicks * 65536 / t.weight) % 2 ^ 64

/-- The event creates a task in slot `i`. -/
def CreatesTask (i : Slot) (s : Scheduler) : SchedEvent → Prop
  | .create .. => freeTaskSlot s.tasks = some i
  | _ => False

/-- `eevdf_pick_next` has returned task `i` since the task was created. -/
def PickedSinceCreation (i : Slot) (h : SchedHistory) : Prop := Since (fun s e => selected s e = some i) (CreatesTask i) h

/-- What is known of a task that has, or has not, been picked. -/
structure Task.Recorded (picked : Prop) (t : Task) : Prop where
  weight : t.weight = eevdfBaseWeight
  slice : t.requestedSliceTicks = eevdfDefaultSlice
  ready : t.state = .ready → (picked ∧ t.vdeadline = calcDeadline t) ∨ (¬ picked ∧ t.vruntime = 0 ∧ t.vdeadline = 0)
  sleeping : t.state = .sleeping → picked

structure Deadlines (picked : Slot → Prop) (s : Scheduler) : Prop where
  policy : s.policy = .eevdf
  current : ∀ c, s.current = some c → picked c
  tasks : ∀ i, (s.tasks i).Recorded (picked i)

/-! ## Tasks -/

section
variable {t t' : Task} {picked picked' : Prop}

theorem Task.Recorded.calcDeadline (h : t.Recorded picked) : calcDeadline t = t.trueDeadline := by
  have hset : t.Settings := settings_default h.weight h.slice
  simp only [Lettuce.calcDeadline, hset.calcVslice, Task.trueDeadline, Task.vslice, eevdfScale]

/-- The true deadline of a new task is 320, not the 0 it is created with. -/
theorem Task.Recorded.true_iff (h : t.Recorded picked) (hs : t.state = .ready) : t.vdeadline = t.trueDeadline ↔ picked := by
  rcases h.ready hs with ⟨hp, hd⟩ | ⟨hp, hv, hd⟩
  · rw [hd, h.calcDeadline]
    exact iff_of_true rfl hp
  · refine iff_of_false ?_ hp
    rw [hd, Task.trueDeadline, hv, h.weight, h.slice]
    decide

/-- The guard of the scan never recomputes a deadline that would change. -/
theorem Task.Recorded.refreshDeadline (h : t.Recorded picked) (hs : t.state = .ready) : t.refreshDeadline = t := by
  unfold Task.refreshDeadline
  rcases h.ready hs with ⟨-, hd⟩ | ⟨-, hv, hd⟩
  · rw [← hd]
    split <;> rfl
  · rw [if_neg (by rw [hv, hd]; exact Nat.lt_irrefl 0)]

/-- Nothing is recorded of a task that is neither READY nor SLEEPING. -/
theorem Task.Recorded.away (h : t.Recorded picked) (hw : t'.weight = t.weight)
    (hr : t'.requestedSliceTicks = t.requestedSliceTicks) (hready : t'.state ≠ .ready) (hsleep : t'.state ≠ .sleeping) :
    t'.Recorded picked' :=
  ⟨hw.trans h.weight, hr.trans h.slice, fun hs => absurd hs hready, fun hs => absurd hs hsleep⟩

/-- A deadline does not depend on the one recorded before. -/
theorem calcDeadline_vdeadline (t : Task) (d : Nat) : calcDeadline { t with vdeadline := d } = calcDeadline t := by
  simp only [calcDeadline, calcVslice, Task.effectiveWeight]

/-- Waking and requeueing record the deadline. -/
theorem Task.Recorded.align (h : t.Recorded picked) (hp : picked) (context : TaskContext) (vsys : Nat) :
    (({ t with context, state := .ready } : Task).align vsys).Recorded picked := by
  unfold Task.align
  dsimp only
  split
  · exact ⟨h.weight, h.slice, fun _ => Or.inl ⟨hp, (calcDeadline_vdeadline _ _).symm⟩, fun _ => hp⟩
  · exact ⟨h.weight, h.slice, fun _ => Or.inl ⟨hp, (calcDeadline_vdeadline _ _).symm⟩, fun _ => hp⟩

theorem Task.Recorded.wake (h : t.Recorded picked) (vsys now : Nat) : (t.wake .eevdf vsys now).Recorded picked := by
  by_cases hd : t.state = .sleeping ∧ t.sleepDeadlineTicks ≤ now
  · rw [Task.wake_of_due hd.1 hd.2]
    exact h.align (h.sleeping hd.1) t.context vsys
  · rw [Task.wake_of_not_due hd]
    exact h

end

/-! ## The phases of `do_schedule` -/

section
variable {picked : Slot → Prop} {s : Scheduler}

theorem Deadlines.setTask (h : Deadlines picked s) {i : Slot} {t : Task} (ht : t.Recorded (picked i)) :
    Deadlines picked (s.setTask i t) :=
  ⟨h.policy, h.current, (Function.forall_update_iff s.tasks fun j t => t.Recorded (picked j)).2 ⟨ht, fun j _ => h.tasks j⟩⟩

theorem Deadlines.wakeSleepers (h : Deadlines picked s) (now : Nat) : Deadlines picked (wakeSleepers s now) := by
  refine ⟨by simpa using h.policy, by simpa using h.current, fun i => ?_⟩
  rw [wakeSleepers_tasks, h.policy]
  split
  · exact (h.tasks i).wake s.vsys now
  · exact h.tasks i

theorem Deadlines.onTick (h : Deadlines picked s) (c : Slot) : Deadlines picked (onTick s c 1) := by
  have hf := onTick_frame s c 1
  refine ⟨hf.policy.trans h.policy, fun i hi => h.current i (hf.current ▸ hi), ?_⟩
  unfold Lettuce.onTick eevdfOnTick
  rw [h.policy]
  dsimp only
  split
  · rename_i hrun
    -- the charged task is RUNNING
    have hcharged : ∀ v, ({ (s.tasks c).chargeSlice 1 with vruntime := v } : Task).Recorded (picked c) := fun v =>
      (h.tasks c).away rfl rfl (by simp [Task.chargeSlice, hrun]) (by simp [Task.chargeSlice, hrun])
    exact (h.setTask (hcharged _)).tasks
  · exact h.tasks

theorem Deadlines.requeue (h : Deadlines picked s) {c : Slot} (hc : s.current = some c) (frame : TrapFrame) :
    Deadlines picked (requeue s c frame) := by
  unfold Lettuce.requeue
  rw [h.policy]
  exact h.setTask ((h.tasks c).align (h.current c hc) frame.save s.vsys)

theorem Deadlines.prepared (h : Deadlines picked s) (now : Nat) (frame : TrapFrame) :
    Deadlines picked (prepared s now frame) := by
  have hwoken := h.wakeSleepers now
  rcases running_or_not s with ⟨c, hc, hrun⟩ | hno
  · rw [prepared_of_running s now frame hc hrun]
    have hcur : (Lettuce.onTick (Lettuce.wakeSleepers s now) c 1).current = some c :=
      (onTick_frame _ c 1).current.trans ((wakeSleepers_current s now).trans hc)
    exact (hwoken.onTick c).requeue hcur frame
  · rw [prepared_of_not_running s now frame hno]
    exact hwoken

/-- An iteration of the scan, if no deadline it looks at is to be recomputed. -/
theorem EevdfScan.visit_tasks_of_fresh {a : EevdfScan} (ha : ∀ i, (a.tasks i).state = .ready → (a.tasks i).refreshDeadline = a.tasks i)
    (vsys : Nat) (slot : Slot) : (a.visit vsys slot).tasks = a.tasks := by
  unfold EevdfScan.visit
  rw [readyAt_eq]
  split
  · rfl
  · rename_i i hi
    obtain ⟨hsel, rfl⟩ : (a.tasks slot).Selectable ∧ slot = i := by simpa using hi
    have hmin : (({ a with readyCount := a.readyCount + 1 } : EevdfScan).trackMin slot).tasks = a.tasks := by
      unfold EevdfScan.trackMin
      split <;> rfl
    unfold EevdfScan.trackEligible
    dsimp only
    rw [hmin, ha slot hsel.2, Function.update_eq_self]
    split
    · split <;> rfl
    · exact hmin

theorem eevdfScan_tasks_of_fresh (hs : ∀ i, (s.tasks i).state = .ready → (s.tasks i).refreshDeadline = s.tasks i) :
    (eevdfScan s).tasks = s.tasks := by
  have hfold : ∀ (l : List Slot) (a : EevdfScan), a.tasks = s.tasks → (l.foldl (EevdfScan.visit s.vsys) a).tasks = s.tasks := by
    intro l
    induction l with
    | nil => exact fun _ ha => ha
    | cons slot l ih =>
      intro a ha
      refine ih _ ((EevdfScan.visit_tasks_of_fresh ?_ s.vsys slot).trans ha)
      rw [ha]
      exact hs
  exact hfold (List.finRange maxTasks) _ rfl

/-- So a decision writes to the picked task alone. -/
theorem eevdfPickNext_tasks_of_fresh (hs : ∀ i, (s.tasks i).state = .ready → (s.tasks i).refreshDeadline = s.tasks i)
    (curr : Option Slot) :
    ((eevdfPickNext s curr).2 = none ∧ (eevdfPickNext s curr).1.tasks = s.tasks) ∨
    ∃ j, (eevdfPickNext s curr).2 = some j ∧ (eevdfPickNext s curr).1.tasks = Function.update s.tasks j (s.tasks j).renew := by
  have hscan := eevdfScan_tasks_of_fresh hs
  unfold eevdfPickNext eevdfChoose
  generalize eevdfScan s = a at hscan ⊢
  simp only [hscan]
  split
  · exact Or.inr ⟨_, rfl, rfl⟩
  · split
    · exact Or.inr ⟨_, rfl, rfl⟩
    · split
      · exact Or.inl ⟨rfl, rfl⟩
      · split
        · exact Or.inr ⟨_, rfl, rfl⟩
        · exact Or.inl ⟨rfl, rfl⟩

/-- And step 3 writes to one task, which is RUNNING then: the picked one, or the current one if none is picked. -/
theorem selectNext_tasks_of_fresh (hp : s.policy = .eevdf)
    (hs : ∀ i, (s.tasks i).state = .ready → (s.tasks i).refreshDeadline = s.tasks i) (frame : TrapFrame) (pre : Bool) :
    ((pickNext s s.current).2 = none ∧ (selectNext s frame pre).sched.tasks = s.tasks) ∨
    ∃ j t, (∀ k, (pickNext s s.current).2 = some k → k = j) ∧ t.weight = (s.tasks j).weight ∧
      t.requestedSliceTicks = (s.tasks j).requestedSliceTicks ∧ t.state = .running ∧
      (selectNext s frame pre).sched.tasks = Function.update s.tasks j t := by
  have hpick : pickNext s s.current = eevdfPickNext s s.current := by rw [pickNext, hp]
  rcases eevdfPickNext_tasks_of_fresh hs s.current with ⟨hnone, htasks⟩ | ⟨j, hj, htasks⟩
  · rw [← hpick] at hnone htasks
    rcases selectNext_outcome s frame pre with ⟨-, -, heq⟩ | ⟨c, -, -, -, heq⟩ | ⟨k, hk, -⟩ | ⟨k, hk, -⟩
    · exact Or.inl ⟨hnone, by rw [heq, htasks]⟩
    · refine Or.inr ⟨c, (s.tasks c).continueRunning, by simp [hnone], rfl, rfl, rfl, ?_⟩
      rw [heq]
      simp only [Scheduler.setTask, htasks]
    · rw [hnone] at hk; cases hk
    · rw [hnone] at hk; cases hk
  · rw [← hpick] at hj htasks
    have honly : ∀ k, (pickNext s s.current).2 = some k → k = j := fun k hk => Option.some.inj (hk.symm.trans hj)
    rcases selectNext_outcome s frame pre with ⟨hk, -⟩ | ⟨c, hk, -⟩ | ⟨k, hk, -, heq⟩ | ⟨k, hk, -, heq⟩
    · rw [hj] at hk; cases hk
    · rw [hj] at hk; cases hk
    · obtain rfl := honly k hk
      refine Or.inr ⟨k, (s.tasks k).renew.continueRunning, honly, rfl, rfl, rfl, ?_⟩
      rw [heq]
      simp only [Scheduler.setTask, htasks, Function.update_idem, Function.update_self]
    · obtain rfl := honly k hk
      refine Or.inr ⟨k, { (s.tasks k).renew with state := .running }, honly, rfl, rfl, rfl, ?_⟩
      rw [heq]
      simp only [switchTo, htasks, Function.update_idem, Function.update_self]

/-- Whoever is picked joins the picked tasks. -/
theorem Deadlines.selectNext (h : Deadlines picked s) (frame : TrapFrame) (pre : Bool) :
    Deadlines (fun i => (pickNext s s.current).2 = some i ∨ picked i) (selectNext s frame pre).sched := by
  have hfresh : ∀ i, (s.tasks i).state = .ready → (s.tasks i).refreshDeadline = s.tasks i := fun i => (h.tasks i).refreshDeadline
  refine ⟨(selectNext_policy s frame pre).trans h.policy, fun c hc => ?_, ?_⟩
  · exact (selectNext_current_or hc).imp_right (h.current c)
  · rcases selectNext_tasks_of_fresh h.policy hfresh frame pre with ⟨hnone, htasks⟩ | ⟨j, t, honly, hw, hr, hstate, htasks⟩
    · rw [htasks]
      intro i
      simpa [hnone] using h.tasks i
    · rw [htasks]
      refine (Function.forall_update_iff s.tasks fun i t => t.Recorded ((pickNext s s.current).2 = some i ∨ picked i)).2 ⟨?_, ?_⟩
      · exact (h.tasks j).away hw hr (by simp [hstate]) (by simp [hstate])
      · intro i hij
        have hne : (pickNext s s.current).2 ≠ some i := fun hi => hij (honly i hi)
        simpa [hne] using h.tasks i

theorem Deadlines.congr {picked' : Slot → Prop} (h : Deadlines picked s) (hiff : ∀ i, picked' i ↔ picked i) :
    Deadlines picked' s := by
  have heq : picked' = picked := funext fun i => propext (hiff i)
  exact heq ▸ h

/-- `do_schedule`: the task a decision picks, if one is made, joins. -/
theorem Deadlines.doSchedule (h : Deadlines picked s) (now : Nat) (trapFrame : Option TrapFrame) (pre : Bool) :
    Deadlines (fun i => (decisionState s now trapFrame pre).bind (fun p => (pickNext p p.current).2) = some i ∨ picked i)
      (doSchedule s now trapFrame pre).sched := by
  rcases doSchedule_decision s now trapFrame pre with ⟨hd, heq, -⟩ | ⟨c, frame, hd, -, -, -, -, -, -, heq⟩ |
    ⟨frame, hd, -, -, heq⟩
  · rw [heq, hd]
    exact h.congr (by simp)
  · rw [heq, hd]
    exact ((h.wakeSleepers now).onTick c).congr (by simp)
  · rw [heq, hd]
    exact (h.prepared now frame).selectNext frame pre

/-- `yield` drops the slice of the current task, `sleep_current` puts it to sleep: it has been picked. -/
theorem Deadlines.called (h : Deadlines picked s) {e : SchedEvent} {k : ScheduleCall} (hk : scheduleCall s e = some k) :
    Deadlines picked k.sched := by
  rcases scheduleCall_sched hk with heq | ⟨c, hc, heq | ⟨now, ticks, heq⟩⟩
  · rw [heq]
    exact h
  · rw [heq]
    exact h.setTask ⟨(h.tasks c).weight, (h.tasks c).slice, (h.tasks c).ready, (h.tasks c).sleeping⟩
  · rw [heq]
    refine h.setTask ⟨(h.tasks c).weight, (h.tasks c).slice, ?_, fun _ => h.current c hc⟩
    simp [Task.sleepUntil]

end

/-! ## Events -/

section
variable {h : SchedHistory} {s : Scheduler}

/-- The invariant after `h`. -/
structure DeadlinesAfter (h : SchedHistory) (s : Scheduler) : Prop where
  sole : SoleRunner s
  deadlines : Deadlines (fun i => PickedSinceCreation i h) s

/-- An event that neither decides nor creates leaves the picked tasks as they are. -/
theorem pickedSinceCreation_other {e : SchedEvent} {i : Slot} (hd : selected s e ≠ some i) (hc : ¬ CreatesTask i s e) :
    PickedSinceCreation i ((s, e) :: h) ↔ PickedSinceCreation i h := by
  constructor
  · rintro (hsel | ⟨-, hp⟩)
    · exact absurd hsel hd
    · exact hp
  · exact since_later hc

theorem not_createsTask_of_scheduling {e : SchedEvent} (he : IsScheduling s e) (i : Slot) : ¬ CreatesTask i s e := by
  cases e with
  | create serviceId domainId entryPc stackTop => exact he.elim
  | _ => exact id

theorem DeadlinesAfter.create (hs : DeadlinesAfter h s) (serviceId : ServiceId) (domainId : DomainId) (entryPc stackTop : Reg) :
    Deadlines (fun i => PickedSinceCreation i ((s, .create serviceId domainId entryPc stackTop) :: h))
      { s with tasks := (taskCreate s.tasks serviceId domainId entryPc stackTop).1 } := by
  have hother : ∀ i, freeTaskSlot s.tasks ≠ some i →
      (PickedSinceCreation i ((s, .create serviceId domainId entryPc stackTop) :: h) ↔ PickedSinceCreation i h) :=
    fun i hi => pickedSinceCreation_other (by simp [selected, decisionPoint]) hi
  refine ⟨hs.deadlines.policy, fun c hc => ?_, ?_⟩
  · exact (hother c fun hfree => hs.sole.free_ne_current hfree hc).2 (hs.deadlines.current c hc)
  · unfold taskCreate
    split
    · rename_i hfull
      intro i
      rw [hother i (by simp [hfull])]
      exact hs.deadlines.tasks i
    · rename_i j hj
      refine (Function.forall_update_iff s.tasks fun i t =>
        t.Recorded (PickedSinceCreation i ((s, .create serviceId domainId entryPc stackTop) :: h))).2 ⟨?_, fun i hi => ?_⟩
      · -- the new task has not been picked, and its deadline has not been computed
        have hnew : ¬ PickedSinceCreation j ((s, .create serviceId domainId entryPc stackTop) :: h) := by
          rintro (hsel | ⟨hc, -⟩)
          · cases hsel
          · exact hc hj
        exact ⟨rfl, rfl, fun _ => Or.inr ⟨hnew, rfl, rfl⟩, by simp⟩
      · rw [hother i fun hfree => hi (Option.some.inj (hfree.symm.trans hj))]
        exact hs.deadlines.tasks i

theorem Deadlines.terminate {picked : Slot → Prop} (hs : Deadlines picked s) (id : TaskId) : Deadlines picked (terminate s id) := by
  rcases terminate_cases s id with heq | ⟨i, -, heq⟩
  · rw [heq]
    exact hs
  · rw [heq]
    have hdead := hs.setTask (i := i) (t := (s.tasks i).terminate)
      ((hs.tasks i).away rfl rfl (by simp [Task.terminate]) (by simp [Task.terminate]))
    refine ⟨hs.policy, fun c hc => ?_, hdead.tasks⟩
    dsimp only at hc
    split at hc
    · cases hc
    · exact hs.current c hc

theorem DefaultCall.interfaceCall {e : SchedEvent} (he : DefaultCall s e) : InterfaceCall s e := by
  cases e with
  | adopt task => exact he
  | _ => trivial

theorem DeadlinesAfter.step (hs : DeadlinesAfter h s) {e : SchedEvent} (he : DefaultCall s e) :
    DeadlinesAfter ((s, e) :: h) (schedStep s e) := by
  refine ⟨hs.sole.step he.interfaceCall, ?_⟩
  by_cases hscheduling : IsScheduling s e
  · have hcreate := not_createsTask_of_scheduling hscheduling
    rcases schedStep_call hscheduling with ⟨k, hk, hstep, hdecision⟩ | ⟨-, -, hstep, hdecision⟩
    · have hnext := (hs.deadlines.called hk).doSchedule k.now k.frame k.isPreemption
      rw [hstep]
      refine hnext.congr fun i => ?_
      rw [← hdecision]
      exact or_congr_right ⟨fun hp => hp.2, fun hp => ⟨hcreate i, hp⟩⟩
    · rw [hstep]
      exact hs.deadlines.congr fun i => pickedSinceCreation_other (by simp [selected, hdecision]) (hcreate i)
  have hsame : (∀ i, selected s e ≠ some i) → (∀ i, ¬ CreatesTask i s e) →
      Deadlines (fun i => PickedSinceCreation i ((s, e) :: h)) s := fun hsel hcreate =>
    hs.deadlines.congr fun i => pickedSinceCreation_other (hsel i) (hcreate i)
  cases e with
  | create serviceId domainId entryPc stackTop => exact hs.create serviceId domainId entryPc stackTop
  | terminate id => exact (hsame (by simp [selected, decisionPoint]) (fun _ hc => hc)).terminate id
  | setPreemptLimit maxPreempts =>
    obtain ⟨h1, h2, h3⟩ := hsame (by simp [selected, decisionPoint]) (fun _ hc => hc)
    exact ⟨h1, h2, h3⟩
  | start =>
    obtain ⟨h1, h2, h3⟩ := hsame (by simp [selected, decisionPoint]) (fun _ hc => hc)
    exact ⟨h1, h2, h3⟩
  | stop =>
    obtain ⟨h1, h2, h3⟩ := hsame (by simp [selected, decisionPoint]) (fun _ hc => hc)
    exact ⟨h1, h2, h3⟩
  | tick now frame => exact absurd trivial hscheduling
  | yield now frame => exact absurd trivial hscheduling
  | sleep ticks now frame => exact absurd trivial hscheduling
  | _ => exact he.elim

theorem deadlinesAfter_start (s₀ : Scheduler) : DeadlinesAfter [] (eevdfStart s₀) := by
  have htasks : (eevdfStart s₀).tasks = taskInit := schedulerInit_tasks s₀
  refine ⟨(SoleRunner.init s₀).setPolicy .eevdf, rfl, fun c hc => ?_, fun i => ?_⟩
  · rw [show (eevdfStart s₀).current = none from schedulerInit_current s₀] at hc
    cases hc
  · rw [htasks]
    exact ⟨rfl, rfl, by simp [taskInit], by simp [taskInit]⟩

/-- The decision of an event finds the tasks as the call of `do_schedule` prepared them. -/
theorem DeadlinesAfter.decision (hs : DeadlinesAfter h s) {e : SchedEvent} {p : Scheduler} (hp : decisionPoint s e = some p) :
    Deadlines (fun i => PickedSinceCreation i h) p := by
  have hscheduling : IsScheduling s e := by
    cases e with
    | tick now frame => trivial
    | yield now frame => trivial
    | sleep ticks now frame => trivial
    | _ => cases hp
  rcases schedStep_call hscheduling with ⟨k, hk, -, hdecision⟩ | ⟨-, -, -, hdecision⟩
  · rw [hp] at hdecision
    rcases doSchedule_decision k.sched k.now k.frame k.isPreemption with ⟨hd, -⟩ | ⟨c, frame, hd, -⟩ | ⟨frame, hd, -⟩
    · rw [hd] at hdecision; cases hdecision
    · rw [hd] at hdecision; cases hdecision
    · rw [hd] at hdecision
      obtain rfl := Option.some.inj hdecision
      exact (hs.deadlines.called hk).prepared k.now frame
  · rw [hp] at hdecision
    cases hdecision

end

/-- **Recorded deadlines**: in every run of the interface under EEVDF in which weights and slices keep their
creation values, whenever `eevdf_pick_next` is entered, with the table as in `p`, a READY task has recorded
its true deadline if and only if it has been picked since it was created. So eligible tasks are compared by
their true deadlines exactly at the entries that find no READY task that has never run. -/
theorem recorded_deadline_iff_picked (s₀ : Scheduler) {h : SchedHistory} {s : Scheduler}
    (r : Run DefaultCall schedStep (eevdfStart s₀) h s) {e : SchedEvent} {p : Scheduler} (hp : decisionPoint s e = some p) :
    (∀ i, (p.tasks i).state = .ready → ((p.tasks i).vdeadline = (p.tasks i).trueDeadline ↔ PickedSinceCreation i h)) ∧
    ((∀ i, (p.tasks i).state = .ready → (p.tasks i).vdeadline = (p.tasks i).trueDeadline) ↔
      ∀ i, (p.tasks i).state = .ready → PickedSinceCreation i h) := by
  have hs : DeadlinesAfter h s := r.historyInvariant (deadlinesAfter_start s₀) fun _ _ _ he hs => hs.step he
  have hiff : ∀ i, (p.tasks i).state = .ready → ((p.tasks i).vdeadline = (p.tasks i).trueDeadline ↔ PickedSinceCreation i h) :=
    fun i hi => ((hs.decision hp).tasks i).true_iff hi
  exact ⟨hiff, forall₂_congr hiff⟩

/-- One task, created and started. -/
def newTaskRun : SchedHistory × Scheduler :=
  traceFrom schedStep [] (eevdfStart schedulerBoot) [.create 10 100 0x1000 0x2000, .start]

theorem newTaskRun_run : Run DefaultCall schedStep (eevdfStart schedulerBoot) newTaskRun.1 newTaskRun.2 :=
  Run.start.trace ⟨trivial, trivial, trivial⟩

/-- At a yield after its first tick the task has its true deadline, 384. -/
theorem recorded_deadline_iff_picked_yield :
    ∃ p, decisionPoint (schedStep newTaskRun.2 (.tick 0 (some (initialContext 0 0).restore)))
        (.yield 1 (some (initialContext 0 0).restore)) = some p ∧
      (p.tasks firstSlot).vdeadline = 384 ∧ (p.tasks firstSlot).vdeadline = (p.tasks firstSlot).trueDeadline := by
  have hfacts : selected newTaskRun.2 (.tick 0 (some (initialContext 0 0).restore)) = some firstSlot ∧
      (decisionPoint (schedStep newTaskRun.2 (.tick 0 (some (initialContext 0 0).restore)))
        (.yield 1 (some (initialContext 0 0).restore))).isSome ∧
      ∀ q ∈ decisionPoint (schedStep newTaskRun.2 (.tick 0 (some (initialContext 0 0).restore)))
          (.yield 1 (some (initialContext 0 0).restore)),
        (q.tasks firstSlot).state = .ready ∧ (q.tasks firstSlot).vdeadline = 384 := by decide +kernel
  obtain ⟨hsel, hsome, hp⟩ := hfacts
  obtain ⟨p, heq⟩ := Option.isSome_iff_exists.1 hsome
  obtain ⟨hready, hdeadline⟩ := hp p heq
  have r := newTaskRun_run.next (.tick 0 (some (initialContext 0 0).restore)) trivial
  exact ⟨p, heq, hdeadline, ((recorded_deadline_iff_picked schedulerBoot r heq).1 firstSlot hready).2 (since_now hsel)⟩

/-- The first pick finds the new task READY with deadline 0 instead of 320. -/
theorem new_task_competes_with_zero : ∃ h s e p, Run DefaultCall schedStep (eevdfStart schedulerBoot) h s ∧
    decisionPoint s e = some p ∧ (p.tasks firstSlot).vdeadline = 0 ∧ (p.tasks firstSlot).trueDeadline = 320 ∧
    ¬ ∀ i, (p.tasks i).state = .ready → (p.tasks i).vdeadline = (p.tasks i).trueDeadline := by
  have hfacts : (decisionPoint newTaskRun.2 (.tick 0 (some (initialContext 0 0).restore))).isSome ∧
      ∀ q ∈ decisionPoint newTaskRun.2 (.tick 0 (some (initialContext 0 0).restore)),
        (q.tasks firstSlot).state = .ready ∧ (q.tasks firstSlot).vdeadline = 0 ∧ (q.tasks firstSlot).trueDeadline = 320 := by
    decide +kernel
  obtain ⟨p, hp⟩ := Option.isSome_iff_exists.1 hfacts.1
  obtain ⟨hready, hdeadline, htrue⟩ := hfacts.2 p hp
  refine ⟨_, _, _, p, newTaskRun_run, hp, hdeadline, htrue, fun hall => ?_⟩
  have heq := hall firstSlot hready
  rw [hdeadline, htrue] at heq
  cases heq

end Lettuce
