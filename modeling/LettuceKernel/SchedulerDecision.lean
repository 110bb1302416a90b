import LettuceKernel.Scheduler
/-!
# Scheduling decisions

A scheduling event reaches the policy's `pick_next` (scheduler.c:156) unless `do_schedule`
returns before: the scheduler is inactive, the frame is null, or the running task is preempted
with some of its slice left (:137). `decisionPoint` is the scheduler as `pick_next` finds it,
with sleepers woken and the running task charged and queued, and `selected` the task it picks.
-/

namespace Lettuce

open Runs

/-- The preempted task goes on: on_tick leaves it a part of its slice (scheduler.c:137). -/
def Scheduler.keepsSlice (s : Scheduler) (isPreemption : Bool) : Bool :=
  isPreemption && match s.current with
    | none => false
    | some c => decide ((s.tasks c).state = .running) && decide (1 < (s.tasks c).timeSliceTicks)

def decisionState (s : Scheduler) (now : Nat) (trapFrame : Option TrapFrame) (isPreemption : Bool) : Option Scheduler :=
  match trapFrame with
  | none => none
  | some frame =>
    if !s.active then none else if s.keepsSlice isPreemption then none else some (prepared s now frame)

def decisionPoint (s : Scheduler) : SchedEvent → Option Scheduler
  | .tick now frame => decisionState s now.toNat frame true
  | .yield now frame =>
    match s.current with
    | none => none
    | some c => decisionState (s.setTask c (s.tasks c).dropSlice) now.toNat frame false
  | .sleep ticks now frame =>
    match s.current with
    | none => none
    | some c => decisionState (s.setTask c ((s.tasks c).sleepUntil now.toNat ticks.toNat)) now.toNat frame false
  | _ => none

/-- The task `pick_next` returns in an event. -/
def selected (s : Scheduler) (e : SchedEvent) : Option Slot :=
  (decisionPoint s e).bind fun p => (pickNext p p.current).2

/-- How many events of a list select a task that meets `who`. -/
def selectionCount (who : Slot → Bool) : Scheduler → List SchedEvent → Nat
  | _, [] => 0
  | s, e :: es => ((selected s e).filter who).toList.length + selectionCount who (schedStep s e) es

/-- `task` is READY at every decision of a list of events, and none selects it. -/
def Waits (task : Slot) : Scheduler → List SchedEvent → Prop
  | _, [] => True
  | s, e :: es =>
    (∀ p, decisionPoint s e = some p → (p.tasks task).state = .ready ∧ selected s e ≠ some task) ∧
      Waits task (schedStep s e) es

theorem waits_admits {task : Slot} {s : Scheduler} {es : List SchedEvent} (hw : Waits task s es) :
    Admits (fun s e => ∀ p, decisionPoint s e = some p → (p.tasks task).state = .ready ∧ selected s e ≠ some task)
      schedStep s es := by
  induction es generalizing s with
  | nil => trivial
  | cons e es ih => exact ⟨hw.1, ih hw.2⟩

instance decidableWaits (task : Slot) : (s : Scheduler) → (es : List SchedEvent) → Decidable (Waits task s es)
  | _, [] => isTrue trivial
  | s, e :: es =>
    haveI := decidableWaits task (schedStep s e) es
    inferInstanceAs (Decidable ((∀ p ∈ decisionPoint s e, (p.tasks task).state = .ready ∧ selected s e ≠ some task) ∧
      Waits task (schedStep s e) es))

section
variable {s : Scheduler} {pre : Bool}

theorem keepsSlice_eq_true : s.keepsSlice pre = true ↔
    pre = true ∧ ∃ c, s.current = some c ∧ (s.tasks c).state = .running ∧ 1 < (s.tasks c).timeSliceTicks := by
  unfold Scheduler.keepsSlice
  cases s.current with
  | none => simp
  | some c => simp

/-- `do_schedule` returns at once, charges the running task only, or goes on to a decision. -/
theorem doSchedule_decision (s : Scheduler) (now : Nat) (trapFrame : Option TrapFrame) (pre : Bool) :
    (decisionState s now trapFrame pre = none ∧ doSchedule s now trapFrame pre = ⟨s, trapFrame, none⟩ ∧
      (s.active = false ∨ trapFrame = none)) ∨
    (∃ c frame, decisionState s now trapFrame pre = none ∧ s.active = true ∧ trapFrame = some frame ∧
      s.current = some c ∧ (s.tasks c).state = .running ∧ pre = true ∧ 1 < (s.tasks c).timeSliceTicks ∧
      doSchedule s now trapFrame pre = ⟨onTick (wakeSleepers s now) c 1, trapFrame, none⟩) ∨
    (∃ frame, decisionState s now trapFrame pre = some (prepared s now frame) ∧ s.active = true ∧
      trapFrame = some frame ∧ doSchedule s now trapFrame pre = selectNext (prepared s now frame) frame pre) := by
  cases trapFrame with
  | none => exact Or.inl ⟨rfl, rfl, Or.inr rfl⟩
  | some frame =>
    cases ha : s.active with
    | false => exact Or.inl ⟨by simp [decisionState, ha], doSchedule_inactive ha .., Or.inl rfl⟩
    | true =>
      right
      have hds : decisionState s now (some frame) pre =
          if s.keepsSlice pre then none else some (prepared s now frame) := by simp [decisionState, ha]
      rcases doSchedule_cases ha now frame pre with ⟨c, hc, hrun, hpre, hslice, heq⟩ | ⟨hexp, heq⟩
      · refine Or.inl ⟨c, frame, ?_, rfl, rfl, hc, hrun, hpre, hslice, heq⟩
        rw [hds, if_pos (keepsSlice_eq_true.2 ⟨hpre, c, hc, hrun, hslice⟩)]
      · refine Or.inr ⟨frame, ?_, rfl, rfl, heq⟩
        rw [hds, if_neg]
        rintro hkeep
        obtain ⟨hpre, c, hc, hrun, hslice⟩ := keepsSlice_eq_true.1 hkeep
        have := hexp c hc hrun hpre
        omega

/-- The four ways out of a decision. -/
theorem selectNext_outcome (p : Scheduler) (frame : TrapFrame) (pre : Bool) :
    ((pickNext p p.current).2 = none ∧ (∀ c, p.current = some c → ((pickNext p p.current).1.tasks c).state ≠ .ready) ∧
      selectNext p frame pre = ⟨(pickNext p p.current).1, some frame, none⟩) ∨
    (∃ c, (pickNext p p.current).2 = none ∧ p.current = some c ∧ ((pickNext p p.current).1.tasks c).state = .ready ∧
      selectNext p frame pre =
        ⟨(pickNext p p.current).1.setTask c ((pickNext p p.current).1.tasks c).continueRunning, some frame, none⟩) ∨
    (∃ j, (pickNext p p.current).2 = some j ∧ p.current = some j ∧
      selectNext p frame pre =
        ⟨(pickNext p p.current).1.setTask j ((pickNext p p.current).1.tasks j).continueRunning, some frame, none⟩) ∨
    (∃ j, (pickNext p p.current).2 = some j ∧ p.current ≠ some j ∧
      selectNext p frame pre = switchTo (pickNext p p.current).1 j pre) := by
  unfold selectNext
  dsimp only
  cases hpick : (pickNext p p.current).2 with
  | none =>
    cases hc : p.current with
    | none => exact Or.inl ⟨rfl, nofun, rfl⟩
    | some c =>
      rw [hc] at hpick
      by_cases hready : ((pickNext p (some c)).1.tasks c).state = .ready
      · exact Or.inr (Or.inl ⟨c, rfl, rfl, hready, if_pos hready⟩)
      · refine Or.inl ⟨rfl, ?_, if_neg hready⟩
        rintro c' ⟨⟩
        exact hready
  | some j =>
    by_cases hcur : p.current = some j
    · exact Or.inr (Or.inr (Or.inl ⟨j, rfl, hcur, if_pos hcur⟩))
    · exact Or.inr (Or.inr (Or.inr ⟨j, rfl, hcur, if_neg hcur⟩))

/-- The processor changes hands exactly when the decision is for a task other than the current one. -/
theorem doSchedule_target (s : Scheduler) (now : Nat) (trapFrame : Option TrapFrame) (pre : Bool) (j : Slot) :
    (doSchedule s now trapFrame pre).handoff.map Handoff.next = some j ↔
      (∃ p, decisionState s now trapFrame pre = some p ∧ (pickNext p p.current).2 = some j) ∧ s.current ≠ some j := by
  rcases doSchedule_decision s now trapFrame pre with ⟨hd, heq, -⟩ | ⟨c, frame, hd, -, -, -, -, -, -, heq⟩ |
    ⟨frame, hd, -, rfl, heq⟩
  · simp [hd, heq]
  · simp [hd, heq]
  · have hcur := (prepared_mech s now frame).1
    rw [heq, hd]
    simp only [Option.some.injEq, exists_eq_left', ← hcur]
    rcases selectNext_outcome (prepared s now frame) frame pre with ⟨hpick, -, hout⟩ | ⟨c, hpick, -, -, hout⟩ |
      ⟨k, hpick, hk, hout⟩ | ⟨k, hpick, hk, hout⟩
    · simp [hout, hpick]
    · simp [hout, hpick]
    · rw [hout, hpick]
      simp only [Option.map_none, reduceCtorEq, Option.some.injEq, false_iff]
      rintro ⟨rfl, hne⟩
      exact hne hk
    · rw [hout, hpick]
      simp only [switchTo, Option.map_some, Option.some.injEq]
      constructor
      · rintro rfl
        exact ⟨rfl, hk⟩
      · rintro ⟨rfl, -⟩
        rfl

theorem selectNext_policy (p : Scheduler) (frame : TrapFrame) (pre : Bool) :
    (selectNext p frame pre).sched.policy = p.policy := by
  have hp := (pickNext_frame p p.current).policy
  rcases selectNext_outcome p frame pre with ⟨-, -, hout⟩ | ⟨c, -, -, -, hout⟩ | ⟨j, -, -, hout⟩ | ⟨j, -, -, hout⟩
  · rw [hout]; exact hp
  · rw [hout]; exact hp
  · rw [hout]; exact hp
  · rw [hout]; exact hp

/-- The current task after a decision is the picked one or the one before. -/
theorem selectNext_current_or {p : Scheduler} {frame : TrapFrame} {pre : Bool} {c : Slot}
    (hc : (selectNext p frame pre).sched.current = some c) : (pickNext p p.current).2 = some c ∨ p.current = some c := by
  have hf := (pickNext_frame p p.current).current
  rcases selectNext_outcome p frame pre with ⟨-, -, hout⟩ | ⟨i, -, -, -, hout⟩ | ⟨j, -, -, hout⟩ | ⟨j, hj, -, hout⟩
  · rw [hout] at hc; exact Or.inr (hf.symm.trans hc)
  · rw [hout] at hc; exact Or.inr (hf.symm.trans hc)
  · rw [hout] at hc; exact Or.inr (hf.symm.trans hc)
  · rw [hout] at hc; exact Or.inl (hj.trans hc)

theorem doSchedule_policy (s : Scheduler) (now : Nat) (trapFrame : Option TrapFrame) (pre : Bool) :
    (doSchedule s now trapFrame pre).sched.policy = s.policy := by
  rcases doSchedule_decision s now trapFrame pre with ⟨-, heq, -⟩ | ⟨c, frame, -, -, -, -, -, -, -, heq⟩ |
    ⟨frame, -, -, -, heq⟩
  · rw [heq]
  · rw [heq]
    exact (onTick_frame _ c 1).policy.trans (wakeSleepers_policy s now)
  · rw [heq, selectNext_policy]
    exact (prepared_mech s now frame).2.2.1

/-- A decision that selects a task makes it the current one. -/
theorem selectNext_current {p : Scheduler} {j : Slot} (hj : (pickNext p p.current).2 = some j) (frame : TrapFrame)
    (pre : Bool) : (selectNext p frame pre).sched.current = some j := by
  rcases selectNext_outcome p frame pre with ⟨hnone, -⟩ | ⟨c, hnone, -⟩ | ⟨i, hi, hcur, hout⟩ | ⟨i, hi, -, hout⟩
  · rw [hj] at hnone; cases hnone
  · rw [hj] at hnone; cases hnone
  · rw [hout, ← Option.some.inj (hj.symm.trans hi)] at *
    exact (pickNext_frame p p.current).current.trans hcur
  · rw [hout, ← Option.some.inj (hj.symm.trans hi)]
    rfl

end

/-- A potential that pays for every selection bounds their number. -/
theorem selectionCount_le_potential {ok : Scheduler → SchedEvent → Prop} (I : Scheduler → Prop) (who : Slot → Bool)
    (potential : Scheduler → Nat) (hkeep : ∀ s e, ok s e → I s → I (schedStep s e))
    (hpay : ∀ s e, ok s e → I s →
      ((selected s e).filter who).toList.length + potential (schedStep s e) ≤ potential s)
    {s : Scheduler} {es : List SchedEvent} (hs : I s) (ha : Admits ok schedStep s es) :
    selectionCount who s es ≤ potential s := by
  induction es generalizing s with
  | nil => exact Nat.zero_le _
  | cons e es ih =>
    have hstep := hpay s e ha.1 hs
    have hrest := ih (hkeep s e ha.1 hs) ha.2
    simp only [selectionCount]
    omega

/-! ## The call of `do_schedule` inside an event -/

structure ScheduleCall where
  sched : Scheduler
  now : Nat
  frame : Option TrapFrame
  isPreemption : Bool

def ScheduleCall.result (k : ScheduleCall) : Scheduler := (doSchedule k.sched k.now k.frame k.isPreemption).sched

/-- `yield` and `sleep_current` write to the current task first; without one they return. -/
def scheduleCall (s : Scheduler) : SchedEvent → Option ScheduleCall
  | .tick now frame => some ⟨s, now.toNat, frame, true⟩
  | .yield now frame => s.current.map fun c => ⟨s.setTask c (s.tasks c).dropSlice, now.toNat, frame, false⟩
  | .sleep ticks now frame =>
    s.current.map fun c => ⟨s.setTask c ((s.tasks c).sleepUntil now.toNat ticks.toNat), now.toNat, frame, false⟩
  | _ => none

/-- The scheduling events of the interface. -/
def IsScheduling (_ : Scheduler) : SchedEvent → Prop
  | .tick .. => True
  | .yield .. => True
  | .sleep .. => True
  | _ => False

/-- A scheduling event is its call of `do_schedule`, or does nothing. -/
theorem schedStep_call {s : Scheduler} {e : SchedEvent} (he : IsScheduling s e) :
    (∃ k, scheduleCall s e = some k ∧ schedStep s e = k.result ∧
      decisionPoint s e = decisionState k.sched k.now k.frame k.isPreemption) ∨
    (scheduleCall s e = none ∧ s.current = none ∧ schedStep s e = s ∧ decisionPoint s e = none) := by
  cases e with
  | tick now frame => exact Or.inl ⟨_, rfl, rfl, rfl⟩
  | yield now frame =>
    simp only [scheduleCall, schedStep, schedCall, schedulerYield, decisionPoint]
    cases hc : s.current with
    | none => exact Or.inr ⟨rfl, rfl, rfl, rfl⟩
    | some c => exact Or.inl ⟨_, rfl, rfl, rfl⟩
  | sleep ticks now frame =>
    simp only [scheduleCall, schedStep, schedCall, schedulerSleepCurrent, decisionPoint]
    cases hc : s.current with
    | none => exact Or.inr ⟨rfl, rfl, rfl, rfl⟩
    | some c => exact Or.inl ⟨_, rfl, rfl, rfl⟩
  | _ => exact he.elim

/-- What the call finds: the state before, or with one task's slice dropped or put to sleep. -/
theorem scheduleCall_sched {s : Scheduler} {e : SchedEvent} {k : ScheduleCall} (hk : scheduleCall s e = some k) :
    k.sched = s ∨ ∃ c, s.current = some c ∧ (k.sched = s.setTask c (s.tasks c).dropSlice ∨
      ∃ now ticks, k.sched = s.setTask c ((s.tasks c).sleepUntil now ticks)) := by
  cases e with
  | tick now frame =>
    cases hk
    exact Or.inl rfl
  | yield now frame =>
    obtain ⟨c, hc, rfl⟩ := Option.map_eq_some_iff.1 hk
    exact Or.inr ⟨c, hc, Or.inl rfl⟩
  | sleep ticks now frame =>
    obtain ⟨c, hc, rfl⟩ := Option.map_eq_some_iff.1 hk
    exact Or.inr ⟨c, hc, Or.inr ⟨_, _, rfl⟩⟩
  | _ => cases hk

end Lettuce
