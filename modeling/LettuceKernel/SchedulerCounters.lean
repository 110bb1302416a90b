import LettuceKernel.Scheduler
import LettuceKernel.Lib.Run
/-!
# The counters of `scheduler.c`

`g_switch_count`, `g_preempt_count` and the two domain counters are 64-bit words that `do_schedule` advances in its
last steps (scheduler.c:174-214), and `lettuce_scheduler_init` clears. A handover by a tick that brings the preemption count
to the limit stops the scheduler and resumes the kernel. The counts of a run are read off its history.
-/

namespace Lettuce

open Runs

structure Counters where
  switches : Nat
  preempts : Nat
  same : Nat
  cross : Nat

def Scheduler.counters (s : Scheduler) : Counters := ⟨s.switchCount, s.preemptCount, s.sameDomainSwitches, s.crossDomainSwitches⟩

/-- One handover more, modulo 2^64. -/
def Counters.count (c : Counters) (o : Handoff) (isPreemption : Bool) : Counters where
  switches := (c.switches + 1) % 2 ^ 64
  preempts := if isPreemption then (c.preempts + 1) % 2 ^ 64 else c.preempts
  same := if o.domain.isNone then (c.same + 1) % 2 ^ 64 else c.same
  cross := if o.domain.isSome then (c.cross + 1) % 2 ^ 64 else c.cross

def SchedEvent.isTick : SchedEvent → Bool
  | .tick _ _ => true
  | _ => false

def SchedEvent.isInit : SchedEvent → Bool
  | .init => true
  | _ => false

/-- The handover of a step. -/
def handover (p : Scheduler × SchedEvent) : Option Handoff := (schedCall p.1 p.2).handoff

/-- The steps since the last `lettuce_scheduler_init`. -/
def sinceInit (h : SchedHistory) : SchedHistory := h.takeWhile fun p => !p.2.isInit

/-- The handovers of a history: all, those of ticks, those inside a domain and those between two. -/
def tally (h : SchedHistory) : Counters where
  switches := h.countP fun p => (handover p).isSome
  preempts := h.countP fun p => (handover p).isSome && p.2.isTick
  same := h.countP fun p => (handover p).any fun o => o.domain.isNone
  cross := h.countP fun p => (handover p).any fun o => o.domain.isSome

def Counters.wrapped (c : Counters) : Counters :=
  ⟨c.switches % 2 ^ 64, c.preempts % 2 ^ 64, c.same % 2 ^ 64, c.cross % 2 ^ 64⟩

/-- A tick whose handover stopped the scheduler. -/
def LimitHit (s : Scheduler) (e : SchedEvent) : Prop := ∃ o, handover (s, e) = some o ∧ o.resumeKernel = true

/-! ## `do_schedule` -/

/-- What the policies and the wake scan leave alone. -/
def SameCounts (s s' : Scheduler) : Prop := s'.counters = s.counters ∧ s'.preemptLimit = s.preemptLimit

theorem SameCounts.trans {s s' s'' : Scheduler} (h : SameCounts s s') (h' : SameCounts s' s'') : SameCounts s s'' :=
  ⟨h'.1.trans h.1, h'.2.trans h.2⟩

theorem onTick_sameCounts (s : Scheduler) (curr : Slot) (delta : Nat) : SameCounts s (onTick s curr delta) := by
  unfold onTick rrOnTick eevdfOnTick
  dsimp only
  split <;> split <;> exact ⟨rfl, rfl⟩

theorem rrPickNext_sameCounts (s : Scheduler) (curr : Option Slot) : SameCounts s (rrPickNext s curr).1 := by
  unfold rrPickNext
  dsimp only
  split
  · exact ⟨rfl, rfl⟩
  · split
    · exact ⟨rfl, rfl⟩
    · split <;> exact ⟨rfl, rfl⟩

theorem eevdfChoose_sameCounts (s : Scheduler) (a : EevdfScan) (curr : Option Slot) : SameCounts s (eevdfChoose s a curr).1 := by
  unfold eevdfChoose
  dsimp only
  split
  · exact ⟨rfl, rfl⟩
  · split
    · exact ⟨rfl, rfl⟩
    · split
      · exact ⟨rfl, rfl⟩
      · split <;> exact ⟨rfl, rfl⟩

theorem pickNext_sameCounts (s : Scheduler) (curr : Option Slot) : SameCounts s (pickNext s curr).1 := by
  unfold pickNext
  split
  · exact rrPickNext_sameCounts s curr
  · exact eevdfChoose_sameCounts s _ curr

theorem wakeSleepers_sameCounts (s : Scheduler) (now : Nat) : SameCounts s (wakeSleepers s now) := by
  unfold wakeSleepers
  generalize (List.finRange maxTasks).foldl (wakeSlot s.policy s.vsys now) s.tasks = tasks
  exact ⟨rfl, rfl⟩

theorem setTask_sameCounts (s : Scheduler) (i : Slot) (t : Task) : SameCounts s (s.setTask i t) := ⟨rfl, rfl⟩

theorem prepared_sameCounts (s : Scheduler) (now : Nat) (frame : TrapFrame) : SameCounts s (prepared s now frame) := by
  rcases running_or_not s with ⟨c, hc, hrun⟩ | h
  · rw [prepared_of_running s now frame hc hrun]
    exact ((wakeSleepers_sameCounts s now).trans (onTick_sameCounts _ c 1)).trans (setTask_sameCounts _ c _)
  · rw [prepared_of_not_running s now frame h]
    exact wakeSleepers_sameCounts s now

theorem policyInit_sameCounts (s : Scheduler) : SameCounts s (policyInit s) := by
  unfold policyInit
  split <;> exact ⟨rfl, rfl⟩

/-- What a handover `o` does to the counters, and when it goes back to the kernel. -/
structure Counted (s : Scheduler) (isPreemption : Bool) (r : ScheduleResult) : Prop where
  limit : r.sched.preemptLimit = s.preemptLimit
  stays : r.handoff = none → r.sched.counters = s.counters
  counts : ∀ o, r.handoff = some o → r.sched.counters = s.counters.count o isPreemption
  stops : ∀ o, r.handoff = some o → o.resumeKernel =
    (isPreemption && decide (0 < s.preemptLimit) && decide (s.preemptLimit ≤ r.sched.counters.preempts))
  active : ∀ o, r.handoff = some o → o.resumeKernel = true → r.sched.active = false

theorem Counted.of_none {s : Scheduler} {pre : Bool} {r : ScheduleResult} (h : SameCounts s r.sched) (ho : r.handoff = none) :
    Counted s pre r :=
  ⟨h.2, fun _ => h.1, fun o h' => by simp [ho] at h', fun o h' => by simp [ho] at h', fun o h' => by simp [ho] at h'⟩

theorem switchTo_counted (s : Scheduler) (next : Slot) (pre : Bool) : Counted s pre (switchTo s next pre) := by
  refine ⟨rfl, fun h => (nomatch h), fun o ho => ?_, fun o ho => ?_, fun o ho hresume => ?_⟩
  · cases ho
    cases hsame : sameDomain s next
    · simp [switchTo, Scheduler.counters, Counters.count, hsame, Scheduler.nextPreemptCount]
    · simp [switchTo, Scheduler.counters, Counters.count, hsame, Scheduler.nextPreemptCount]
  · cases ho
    rfl
  · cases ho
    have hlimit : s.limitReached pre = true := hresume
    simp only [switchTo, hlimit, if_true]

theorem Counted.of_sameCounts {s s' : Scheduler} {pre : Bool} {r : ScheduleResult} (h : SameCounts s s') (hr : Counted s' pre r) :
    Counted s pre r :=
  ⟨hr.limit.trans h.2, fun ho => (hr.stays ho).trans h.1, fun o ho => h.1 ▸ hr.counts o ho, fun o ho => h.2 ▸ hr.stops o ho,
    hr.active⟩

theorem selectNext_counted (s : Scheduler) (frame : TrapFrame) (pre : Bool) : Counted s pre (selectNext s frame pre) := by
  have hsame := pickNext_sameCounts s s.current
  unfold selectNext
  dsimp only
  split
  · split
    · exact .of_none hsame rfl
    · split
      · exact .of_none (hsame.trans (setTask_sameCounts _ _ _)) rfl
      · exact .of_none hsame rfl
  · split
    · exact .of_none (hsame.trans (setTask_sameCounts _ _ _)) rfl
    · exact .of_sameCounts hsame (switchTo_counted _ _ pre)

theorem doSchedule_counted (s : Scheduler) (now : Nat) (trapFrame : Option TrapFrame) (pre : Bool) :
    Counted s pre (doSchedule s now trapFrame pre) := by
  cases ha : s.active with
  | false =>
    rw [doSchedule_inactive ha]
    exact .of_none ⟨rfl, rfl⟩ rfl
  | true =>
    cases trapFrame with
    | none => exact .of_none ⟨rfl, rfl⟩ rfl
    | some frame =>
      rcases doSchedule_cases ha now frame pre with ⟨c, -, -, -, -, heq⟩ | ⟨-, heq⟩
      · rw [heq]
        exact .of_none ((wakeSleepers_sameCounts s now).trans (onTick_sameCounts _ c 1)) rfl
      · rw [heq]
        exact .of_sameCounts (prepared_sameCounts s now frame) (selectNext_counted _ frame pre)

theorem schedCall_counted (s : Scheduler) {e : SchedEvent} (h : e.scheduling.isSome) :
    Counted s e.isTick (schedCall s e) := by
  cases e with
  | tick now frame => exact doSchedule_counted s now.toNat frame true
  | yield now frame =>
    simp only [schedCall, schedulerYield]
    split
    · exact .of_none ⟨rfl, rfl⟩ rfl
    · exact .of_sameCounts (setTask_sameCounts s _ _) (doSchedule_counted _ now.toNat frame false)
  | sleep ticks now frame =>
    simp only [schedCall, schedulerSleepCurrent]
    split
    · exact .of_none ⟨rfl, rfl⟩ rfl
    · exact .of_sameCounts (setTask_sameCounts s _ _) (doSchedule_counted _ now.toNat frame false)
  | _ => exact absurd h Bool.false_ne_true

/-! ## Runs -/

theorem terminate_sameCounts (s : Scheduler) (id : TaskId) : SameCounts s (terminate s id) := by
  rcases terminate_cases s id with h | ⟨i, -, h⟩
  · rw [h]
    exact ⟨rfl, rfl⟩
  · rw [h]
    exact ⟨rfl, rfl⟩

/-- The operations of the interface that are no scheduling event count nothing. -/
theorem schedStep_sameCounts {s : Scheduler} {e : SchedEvent} (h : e.scheduling.isSome = false) (hinit : e.isInit = false) :
    (schedStep s e).counters = s.counters := by
  cases e with
  | init => exact absurd hinit.symm Bool.false_ne_true
  | terminate id => exact (terminate_sameCounts s id).1
  | setPolicy policy => exact (policyInit_sameCounts _).1
  | tick now frame => exact absurd h.symm Bool.false_ne_true
  | yield now frame => exact absurd h.symm Bool.false_ne_true
  | sleep ticks now frame => exact absurd h.symm Bool.false_ne_true
  | adopt task =>
    simp only [schedStep, schedCall, adopt]
    rfl
  | _ => rfl

theorem schedStep_init (s : Scheduler) : (schedStep s .init).counters = ⟨0, 0, 0, 0⟩ := (policyInit_sameCounts _).1

theorem handover_none {s : Scheduler} {e : SchedEvent} (h : e.scheduling.isSome = false) : handover (s, e) = none := by
  cases e with
  | tick now frame => exact absurd h.symm Bool.false_ne_true
  | yield now frame => exact absurd h.symm Bool.false_ne_true
  | sleep ticks now frame => exact absurd h.symm Bool.false_ne_true
  | _ => rfl

/-- While the scheduler is stopped no step hands over. -/
theorem handover_inactive {s : Scheduler} (ha : s.active = false) (e : SchedEvent) : handover (s, e) = none := by
  cases e with
  | tick now frame =>
    simp only [handover, schedCall, schedulerTick]
    rw [doSchedule_inactive ha]
  | yield now frame =>
    simp only [handover, schedCall, schedulerYield]
    split
    · rfl
    · rw [doSchedule_inactive (by exact ha)]
  | sleep ticks now frame =>
    simp only [handover, schedCall, schedulerSleepCurrent]
    split
    · rfl
    · rw [doSchedule_inactive (by exact ha)]
  | _ => rfl

/-- Only `lettuce_scheduler_start` starts it again. -/
theorem inactive_step {s : Scheduler} {e : SchedEvent} (ha : s.active = false) (he : e ≠ .start) : (schedStep s e).active = false := by
  cases e with
  | init =>
    simp only [schedStep, schedCall, schedulerInit, policyInit]
    split <;> rfl
  | terminate id =>
    rcases terminate_cases s id with h | ⟨i, -, h⟩ <;> simp only [schedStep, schedCall, h] <;> exact ha
  | setPolicy policy =>
    simp only [schedStep, schedCall, setPolicy, policyInit]
    split <;> exact ha
  | start => exact absurd rfl he
  | stop => rfl
  | tick now frame =>
    simp only [schedStep, schedCall, schedulerTick]
    rw [doSchedule_inactive ha]
    exact ha
  | yield now frame =>
    simp only [schedStep, schedCall, schedulerYield]
    split
    · exact ha
    · rw [doSchedule_inactive (by exact ha)]
      exact ha
  | sleep ticks now frame =>
    simp only [schedStep, schedCall, schedulerSleepCurrent]
    split
    · exact ha
    · rw [doSchedule_inactive (by exact ha)]
      exact ha
  | _ => exact ha

/-- One step more in the tally. -/
theorem tally_cons (p : Scheduler × SchedEvent) (h : SchedHistory) :
    (tally (p :: h)).wrapped = match handover p with
      | none => (tally h).wrapped
      | some o => (tally h).wrapped.count o p.2.isTick := by
  cases ho : handover p with
  | none => simp [tally, Counters.wrapped, ho]
  | some o =>
    cases hd : o.domain <;> cases ht : p.2.isTick <;> simp [tally, Counters.wrapped, Counters.count, ho, hd, ht]

theorem counters_step {h : SchedHistory} {s : Scheduler} (e : SchedEvent) (hs : s.counters = (tally (sinceInit h)).wrapped) :
    (schedStep s e).counters = (tally (sinceInit ((s, e) :: h))).wrapped := by
  cases hinit : e.isInit with
  | true =>
    have he : e = .init := by cases e <;> first | rfl | exact absurd hinit Bool.false_ne_true
    subst he
    exact schedStep_init s
  | false =>
    have hmore : sinceInit ((s, e) :: h) = (s, e) :: sinceInit h := by simp [sinceInit, hinit]
    rw [hmore, tally_cons, ← hs]
    cases hscheduling : e.scheduling.isSome with
    | false =>
      rw [handover_none hscheduling]
      exact schedStep_sameCounts hscheduling hinit
    | true =>
      have hcounted := schedCall_counted s hscheduling
      cases ho : handover (s, e) with
      | none => exact hcounted.stays ho
      | some o => exact hcounted.counts o ho

/-- In every run the four counters are the numbers of handovers since the last `lettuce_scheduler_init`, modulo 2^64. A
handover resumes the kernel exactly if it is a tick's and brings the preemptions to the limit; from then until the next
`lettuce_scheduler_start` the scheduler is stopped, and no step hands over. -/
theorem counters_exact {h : SchedHistory} {s : Scheduler} (r : Run anyStep schedStep schedulerBoot h s) :
    s.counters = (tally (sinceInit h)).wrapped ∧
      (∀ e o, handover (s, e) = some o → (o.resumeKernel = true ↔
        e.isTick = true ∧ 0 < s.preemptLimit ∧ s.preemptLimit ≤ ((tally (sinceInit h)).preempts + 1) % 2 ^ 64)) ∧
      (Since LimitHit (fun _ e => e = .start) h → s.active = false ∧ ∀ e, handover (s, e) = none) := by
  have hcounters : s.counters = (tally (sinceInit h)).wrapped :=
    r.historyInvariant (I := fun h s => s.counters = (tally (sinceInit h)).wrapped) rfl fun _ _ e _ hs => counters_step e hs
  have hstopped : Since LimitHit (fun _ e => e = .start) h → s.active = false := by
    refine r.historyInvariant (I := fun h s => Since LimitHit (fun _ e => e = .start) h → s.active = false) False.elim ?_
    intro h s e _ ih hsince
    rcases hsince with ⟨o, ho, hresume⟩ | ⟨hstart, hsince⟩
    · have hscheduling : e.scheduling.isSome = true := by
        by_contra hnot
        rw [handover_none (Bool.eq_false_iff.2 hnot)] at ho
        cases ho
      exact (schedCall_counted s hscheduling).active o ho hresume
    · exact inactive_step (ih hsince) hstart
  refine ⟨hcounters, fun e o ho => ?_, fun hsince => ⟨hstopped hsince, handover_inactive (hstopped hsince)⟩⟩
  have hscheduling : e.scheduling.isSome = true := by
    by_contra hnot
    rw [handover_none (Bool.eq_false_iff.2 hnot)] at ho
    cases ho
  have hcounted := schedCall_counted s hscheduling
  rw [hcounted.stops o ho, hcounted.counts o ho, hcounters]
  cases ht : e.isTick with
  | false => simp
  | true => simp [Counters.count, Counters.wrapped]

/-- One task and a limit of one preemption: the first tick stops the scheduler. -/
def limitRun : SchedHistory × Scheduler :=
  traceFrom schedStep [] schedulerBoot
    [.init, .create 10 100 0x1000 0x2000, .setPreemptLimit 1, .start, .tick 5 (some (initialContext 0 0).restore)]

theorem counters_exact_limit : limitRun.2.active = false ∧ limitRun.2.counters = ⟨1, 1, 0, 1⟩ := by
  have r : Run anyStep schedStep schedulerBoot limitRun.1 limitRun.2 := Run.start.trace (admits_anyStep _ _)
  have hhit : Since LimitHit (fun _ e => e = .start) limitRun.1 := Or.inl ⟨_, rfl, rfl⟩
  have htally : (tally (sinceInit limitRun.1)).wrapped = ⟨1, 1, 0, 1⟩ := rfl
  generalize limitRun.1 = h, limitRun.2 = s at r hhit htally ⊢
  obtain ⟨hcounters, -, hstopped⟩ := counters_exact r
  exact ⟨(hstopped hhit).1, hcounters.trans htally⟩

end Lettuce
