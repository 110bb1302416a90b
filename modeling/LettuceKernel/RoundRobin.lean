import LettuceKernel.SchedulerDecision
/-!
# Bounded bypass under Round-Robin

`rr_pick_next` scans the slots in a circle from behind the last slot it picked (from that slot
itself while there is no current task) and takes the first READY one. `rrWait` is how far the
scan has to go to reach a task. A READY task is reached at last, so the scan stops at it or
before; every selection of another task leaves it strictly closer, and at most 15 selections
pass it by, whatever sleeps and wakes in between.
-/

namespace Lettuce

open Runs

/-- The offset of the first slot the scan looks at (rr.c:37). -/
def rrStart (curr : Option Slot) : Nat := if curr.isNone then 0 else 1

/-- `(task - (lastIdx + start)) mod 16`: the round in which the scan looks at `task`. -/
def rrWait (lastIdx start : Nat) (task : Slot) : Nat := (task.val + 15 * (lastIdx + start)) % maxTasks

def IsCreation : SchedEvent → Prop
  | .create .. => True
  | _ => False

/-- Round-Robin chosen, the tasks created, the scheduler started. -/
def rrStarted (s₀ : Scheduler) (creations : List SchedEvent) : Scheduler :=
  schedStep (traceFrom schedStep [] (setPolicy (schedulerInit s₀) .rr) creations).2 .start

/-- No task has been terminated, so every scan sees every task. -/
structure RrState (s : Scheduler) : Prop where
  policy : s.policy = .rr
  generation : ∀ i, (s.tasks i).generation = 1

section
variable {s : Scheduler}

theorem RrState.selectable (h : RrState s) {i : Slot} (hr : (s.tasks i).state = .ready) : (s.tasks i).Selectable :=
  ⟨scanned_of_generation (h.generation i) (by simp [hr]), hr⟩

theorem RrState.doSchedule (h : RrState s) (now : Nat) (trapFrame : Option TrapFrame) (pre : Bool) :
    RrState (doSchedule s now trapFrame pre).sched :=
  ⟨(doSchedule_policy s now trapFrame pre).trans h.policy, fun i =>
    (ident_generation (doSchedule_move s now trapFrame pre i).ident).trans (h.generation i)⟩

theorem RrState.setTask (h : RrState s) {i : Slot} {t : Task} (ht : t.generation = (s.tasks i).generation) :
    RrState (s.setTask i t) :=
  ⟨h.policy, every_update (P := fun t => t.generation = 1) h.generation (ht.trans (h.generation i))⟩

theorem RrState.called (h : RrState s) {e : SchedEvent} {k : ScheduleCall} (hk : scheduleCall s e = some k) : RrState k.sched := by
  rcases scheduleCall_sched hk with heq | ⟨c, -, heq | ⟨now, ticks, heq⟩⟩
  · rw [heq]
    exact h
  · rw [heq]
    exact h.setTask rfl
  · rw [heq]
    exact h.setTask rfl

theorem RrState.step (h : RrState s) {e : SchedEvent} (he : IsScheduling s e ∨ IsCreation e) : RrState (schedStep s e) := by
  rcases he with he | he
  · rcases schedStep_call he with ⟨k, hk, hstep, -⟩ | ⟨-, -, hstep, -⟩
    · rw [hstep]
      exact (h.called hk).doSchedule k.now k.frame k.isPreemption
    · rw [hstep]
      exact h
  · cases e with
    | create serviceId domainId entryPc stackTop =>
      simp only [schedStep, schedCall, taskCreate]
      split
      · exact h
      · rename_i i hi
        refine h.setTask ?_
        dsimp only
        rw [if_neg (by rw [h.generation i]; decide)]
    | _ => exact he.elim

theorem rrStarted_state (s₀ : Scheduler) {creations : List SchedEvent} (hc : ∀ e ∈ creations, IsCreation e) :
    RrState (rrStarted s₀ creations) := by
  have hinit : RrState (setPolicy (schedulerInit s₀) .rr) := by
    refine ⟨rfl, fun i => ?_⟩
    rw [show (setPolicy (schedulerInit s₀) .rr).tasks = taskInit from schedulerInit_tasks s₀]
    rfl
  have hcreated : ∀ (h : SchedHistory) (s : Scheduler), RrState s → (∀ e ∈ creations, IsCreation e) →
      RrState (traceFrom schedStep h s creations).2 := by
    induction creations with
    | nil => exact fun _ _ hs _ => hs
    | cons e es ih =>
      intro h s hs hall
      refine ih (fun e' he' => hc e' (List.mem_cons_of_mem _ he')) _ _ (hs.step (Or.inr (hall e (List.mem_cons_self ..)))) ?_
      exact fun e' he' => hall e' (List.mem_cons_of_mem _ he')
  have hs := hcreated [] _ hinit hc
  exact ⟨hs.policy, hs.generation⟩

/-! ## The circular scan -/

/-- The scan stops at a selectable task, or at another one that is closer. -/
theorem rrPickNext_stops {task : Slot} (ht : (s.tasks task).Selectable) (curr : Option Slot) :
    ∃ j, (rrPickNext s curr).2 = some j ∧ (rrPickNext s curr).1.rrLastIdx = j.val ∧
      (j = task ∨ rrWait j.val 1 task < rrWait s.rrLastIdx (rrStart curr) task) := by
  have htask : task.val < 16 := task.isLt
  unfold rrPickNext
  dsimp only
  rw [show (if curr.isNone then 0 else 1) = rrStart curr from rfl]
  generalize rrStart curr = start
  -- the round that reaches `task`
  obtain ⟨i, hmem, hi⟩ : ∃ i, i ∈ List.range' start maxTasks ∧ i = start + rrWait s.rrLastIdx start task := by
    refine ⟨_, ?_, rfl⟩
    rw [List.mem_range'_1, rrWait]
    have := Nat.mod_lt (task.val + 15 * (s.rrLastIdx + start)) (show 0 < maxTasks by decide)
    omega
  have hcand : rrCandidate s.rrLastIdx i = task := by
    apply Fin.ext
    simp only [rrCandidate, hi, rrWait, maxTasks]
    omega
  have hfi : readyAt s.tasks (rrCandidate s.rrLastIdx i) = some task := by rw [hcand, readyAt_eq, if_pos ht]
  cases hf : (List.range' start maxTasks).findSome? fun i => readyAt s.tasks (rrCandidate s.rrLastIdx i) with
  | none =>
    rw [List.findSome?_eq_none_iff] at hf
    rw [hf i hmem] at hfi
    cases hfi
  | some j =>
    refine ⟨j, rfl, rfl, ?_⟩
    obtain ⟨before, k, after, hsplit, hk, hbefore⟩ := List.findSome?_eq_some_iff.1 hf
    have hkmem : k ∈ List.range' start maxTasks := by rw [hsplit]; simp
    have hj : j = rrCandidate s.rrLastIdx k := by
      rw [readyAt_eq] at hk
      split at hk
      · exact (Option.some.inj hk).symm
      · cases hk
    -- the scan runs upwards, so the round it stopped in is not after `i`
    have hle : k ≤ i := by
      have hsorted := List.pairwise_lt_range' (s := start) (n := maxTasks)
      rw [hsplit] at hsorted hmem
      rcases List.mem_append.1 hmem with hin | hin
      · rw [hbefore i hin] at hfi
        cases hfi
      · rcases List.mem_cons.1 hin with rfl | hin
        · exact Nat.le_refl _
        · have hpair := (List.pairwise_append.1 hsorted).2.1
          exact Nat.le_of_lt ((List.pairwise_cons.1 hpair).1 i hin)
    rw [List.mem_range'_1] at hkmem
    by_cases hki : k = i
    · left
      rw [hj, hki, hcand]
    · right
      have hjv : j.val = (s.rrLastIdx + k) % 16 := by rw [hj]; rfl
      have hwait : rrWait s.rrLastIdx start task < 16 := Nat.mod_lt _ (by decide)
      have htv : task.val = (s.rrLastIdx + i) % 16 := by rw [← hcand]; rfl
      simp only [rrWait, maxTasks] at hi hwait ⊢
      omega

/-! ## Waiting -/

theorem onTick_rrLastIdx (s : Scheduler) (c : Slot) (delta : Nat) : (onTick s c delta).rrLastIdx = s.rrLastIdx := by
  unfold onTick rrOnTick eevdfOnTick
  split
  · split <;> rfl
  · dsimp only
    split <;> rfl

theorem prepared_rrLastIdx (s : Scheduler) (now : Nat) (frame : TrapFrame) :
    (prepared s now frame).rrLastIdx = s.rrLastIdx := by
  rcases running_or_not s with ⟨c, hc, hrun⟩ | hno
  · rw [prepared_of_running s now frame hc hrun]
    exact (onTick_rrLastIdx _ c 1).trans (by simp only [wakeSleepers])
  · rw [prepared_of_not_running s now frame hno]
    simp only [wakeSleepers]

/-- A decision that passes `task` by brings it closer. -/
theorem selectNext_closer {p : Scheduler} (hp : p.policy = .rr) {task : Slot} (ht : (p.tasks task).Selectable)
    (hne : (pickNext p p.current).2 ≠ some task) (frame : TrapFrame) (pre : Bool) :
    ((pickNext p p.current).2).isSome ∧
      rrWait (selectNext p frame pre).sched.rrLastIdx (rrStart (selectNext p frame pre).sched.current) task <
        rrWait p.rrLastIdx (rrStart p.current) task := by
  have hpick : pickNext p p.current = rrPickNext p p.current := by rw [pickNext, hp]
  obtain ⟨j, hj, hlast, hcloser⟩ := rrPickNext_stops ht p.current
  rw [← hpick] at hj hlast
  have hlt := hcloser.resolve_left fun he => hne (he ▸ hj)
  have hidx : (selectNext p frame pre).sched.rrLastIdx = j.val := by
    rcases selectNext_outcome p frame pre with ⟨-, -, hout⟩ | ⟨c, -, -, -, hout⟩ | ⟨i, -, -, hout⟩ | ⟨i, -, -, hout⟩
    · rw [hout]; exact hlast
    · rw [hout]; exact hlast
    · rw [hout]; exact hlast
    · rw [hout]; exact hlast
  rw [selectNext_current hj frame pre, hidx]
  exact ⟨by rw [hj]; rfl, hlt⟩

/-- One `do_schedule` while `task` waits: a selection is paid for by the distance. -/
theorem RrState.doSchedule_wait (h : RrState s) {task : Slot} (now : Nat) (trapFrame : Option TrapFrame) (pre : Bool)
    (hw : ∀ p, decisionState s now trapFrame pre = some p →
      (p.tasks task).state = .ready ∧ (pickNext p p.current).2 ≠ some task) :
    ((decisionState s now trapFrame pre).bind fun p => (pickNext p p.current).2).toList.length +
        rrWait (Lettuce.doSchedule s now trapFrame pre).sched.rrLastIdx
          (rrStart (Lettuce.doSchedule s now trapFrame pre).sched.current) task ≤
      rrWait s.rrLastIdx (rrStart s.current) task := by
  rcases doSchedule_decision s now trapFrame pre with ⟨hd, heq, -⟩ | ⟨c, frame, hd, -, -, -, -, -, -, heq⟩ |
    ⟨frame, hd, -, -, heq⟩
  · rw [hd, heq]
    simp
  · have hidx : (onTick (wakeSleepers s now) c 1).rrLastIdx = s.rrLastIdx :=
      (onTick_rrLastIdx _ c 1).trans (by simp only [wakeSleepers])
    have hcur : (onTick (wakeSleepers s now) c 1).current = s.current :=
      (onTick_frame _ c 1).current.trans (wakeSleepers_current s now)
    rw [hd, heq]
    simp [hidx, hcur]
  · obtain ⟨hready, hne⟩ := hw _ hd
    obtain ⟨hcur, -, hpolicy, -⟩ := prepared_mech s now frame
    have hgen : ∀ i, ((prepared s now frame).tasks i).generation = 1 := fun i =>
      (ident_generation ((wakeSleepers_move s now i).trans (prepared_move s now frame i)).ident).trans (h.generation i)
    have hstate : RrState (prepared s now frame) := ⟨hpolicy.trans h.policy, hgen⟩
    obtain ⟨hsome, hlt⟩ := selectNext_closer hstate.policy (hstate.selectable hready) hne frame pre
    rw [hcur, prepared_rrLastIdx] at hlt
    obtain ⟨j, hj⟩ := Option.isSome_iff_exists.1 hsome
    rw [hd, heq]
    simp only [Option.bind_some, hj, Option.toList_some, List.length_singleton]
    omega

theorem RrState.step_wait (h : RrState s) {e : SchedEvent} (he : IsScheduling s e) {task : Slot}
    (hw : ∀ p, decisionPoint s e = some p → (p.tasks task).state = .ready ∧ selected s e ≠ some task) :
    (selected s e).toList.length + rrWait (schedStep s e).rrLastIdx (rrStart (schedStep s e).current) task ≤
      rrWait s.rrLastIdx (rrStart s.current) task := by
  rcases schedStep_call he with ⟨k, hk, hstep, hpoint⟩ | ⟨-, -, hstep, hpoint⟩
  · -- yield and sleep leave the pointer, the current slot and the generations alone
    have hkept : RrState k.sched ∧ k.sched.rrLastIdx = s.rrLastIdx ∧ k.sched.current = s.current := by
      rcases scheduleCall_sched hk with heq | ⟨c, -, heq | ⟨now, ticks, heq⟩⟩
      · rw [heq]; exact ⟨h, rfl, rfl⟩
      · rw [heq]; exact ⟨h.setTask rfl, rfl, rfl⟩
      · rw [heq]; exact ⟨h.setTask rfl, rfl, rfl⟩
    obtain ⟨hstate, hidx, hcur⟩ := hkept
    rw [selected, hpoint] at hw ⊢
    have hwait := hstate.doSchedule_wait k.now k.frame k.isPreemption fun p hp => by
      have := hw p hp
      rwa [hp] at this
    rw [hidx, hcur] at hwait
    rw [hstep]
    exact hwait
  · rw [selected, hpoint, hstep]
    simp

end

/-- **Bounded bypass**: after any creations and a start, in every state a run of ticks, yields and
sleeps reaches, a task that is READY at each decision of the events that follow and is not
selected sees at most 15 selections of other tasks. -/
theorem round_robin_bounded_bypass (s₀ : Scheduler) {creations : List SchedEvent} (hc : ∀ e ∈ creations, IsCreation e)
    {h : SchedHistory} {s : Scheduler} (r : Run IsScheduling schedStep (rrStarted s₀ creations) h s) (task : Slot)
    {es : List SchedEvent} (ha : Admits IsScheduling schedStep s es) (hw : Waits task s es) :
    selectionCount (fun j => j ≠ task) s es ≤ 15 := by
  have hs : RrState s := r.invariant (rrStarted_state s₀ hc) fun _ _ he hs => hs.step (Or.inl he)
  have hbound : rrWait s.rrLastIdx (rrStart s.current) task < 16 := Nat.mod_lt _ (by decide)
  have hcount : selectionCount (fun j => j ≠ task) s es ≤ rrWait s.rrLastIdx (rrStart s.current) task := by
    refine selectionCount_le_potential RrState _ (fun s => rrWait s.rrLastIdx (rrStart s.current) task)
      (fun s e he hs => RrState.step hs (Or.inl he.1)) (fun s e he hs => ?_) hs (ha.and (waits_admits hw))
    have hfilter : ((selected s e).filter fun j => j ≠ task).toList.length ≤ (selected s e).toList.length := by
      cases selected s e with
      | none => exact Nat.le_refl _
      | some j =>
        rw [Option.filter_some]
        split <;> simp
    have hstep := hs.step_wait he.1 he.2
    omega
  omega

/-- Three tasks. -/
def threeCreations : List SchedEvent :=
  [.create 10 100 0x1000 0x2000, .create 20 200 0x3000 0x4000, .create 30 300 0x5000 0x6000]

/-- The first tick selects the first task, its yield the second. -/
def tickAndYield : List SchedEvent :=
  [.tick 0 (some (initialContext 0 0).restore), .yield 0 (some (initialContext 0 0).restore)]

theorem round_robin_bounded_bypass_third :
    selectionCount (fun j => j ≠ 2) (rrStarted schedulerBoot threeCreations) tickAndYield = 2 ∧
      selectionCount (fun j => j ≠ 2) (rrStarted schedulerBoot threeCreations) tickAndYield ≤ 15 := by
  have hc : ∀ e ∈ threeCreations, IsCreation e := by simp [threeCreations, IsCreation]
  have ha : Admits IsScheduling schedStep (rrStarted schedulerBoot threeCreations) tickAndYield := ⟨trivial, trivial, trivial⟩
  exact ⟨by decide +kernel, round_robin_bounded_bypass schedulerBoot hc Run.start 2 ha (by decide +kernel)⟩

end Lettuce
