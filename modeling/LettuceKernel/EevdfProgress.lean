import LettuceKernel.EevdfClock
import LettuceKernel.EevdfBypass
import Mathlib.Algebra.Order.BigOperators.Group.List
import Mathlib.Algebra.Order.Group.Nat
/-!
# When a charge moves the clocks

A charged tick adds `65536 / weight` to the vruntime of the running task, at least 6 as no weight exceeds
10240, and `65536 / W` to `V_sys`, where `W` sums the weights of the tasks that compete. Seven tasks of the
greatest weight have `W = 71680`, and the quotient is 0: work is charged and system virtual time stands still.
Then `V_sys` moves only if the event ends in a decision that finds every READY task beyond it and
jumps to the least of them.
-/

namespace Lettuce

open Runs FirstMins

/-- The weight of a task that is RUNNING, READY, or due to be woken at `now`. -/
def Task.demand (now : Nat) (t : Task) : Nat := if (t.Scanned ∧ t.state = .running) ∨ t.Runnable now then t.weight else 0

def Scheduler.demand (s : Scheduler) (now : Nat) : Nat := ((List.finRange maxTasks).map fun i => (s.tasks i).demand now).sum

/-- Charging task `c` wraps neither clock. -/
structure Scheduler.ClocksFit (s : Scheduler) (c : Slot) (now : Nat) : Prop where
  vsys : s.vsys + 65536 / s.demand now < 2 ^ 64
  vruntime : (s.tasks c).vruntime + 65536 / (s.tasks c).weight < 2 ^ 64

/-- The deadlines that the decision after the charge computes and compares are below its sentinel: those of the charged task,
of the tasks it wakes and of the READY tasks. -/
structure Scheduler.DeadlinesFit (s : Scheduler) (c : Slot) (now : Nat) : Prop where
  charged : max ((s.tasks c).vruntime + 65536 / (s.tasks c).weight) (s.vsys + 65536 / s.demand now) + (s.tasks c).vslice < uint64Max
  woken : ∀ i, (s.tasks i).Runnable now → (s.tasks i).state = .sleeping →
    max (s.tasks i).vruntime s.vsys + (s.tasks i).vslice < uint64Max
  ready : ∀ i, s.Ready i → (s.tasks i).deadline < uint64Max ∧ (s.tasks i).vdeadline < uint64Max

/-- While the slice lasts, the competing weights are not more than `SCALE` and neither clock wraps. At a decision, the weights
are not more than `SCALE` or every competitor, the charged task included, is beyond `V_sys`. -/
def Scheduler.Advances (s : Scheduler) (c : Slot) (now : Nat) (isPreemption : Bool) : Prop :=
  if s.keepsSlice isPreemption then s.demand now ≤ 65536 ∧ s.ClocksFit c now
  else s.demand now ≤ 65536 ∨
    (s.vsys < (s.tasks c).vruntime + 65536 / (s.tasks c).weight ∧
      ∀ i, i ≠ c → (s.tasks i).Runnable now → s.vsys < (s.tasks i).vruntime)

instance (s : Scheduler) (c : Slot) (now : Nat) : Decidable (s.ClocksFit c now) :=
  decidable_of_iff (_ ∧ _) ⟨fun h => ⟨h.1, h.2⟩, fun h => ⟨h.vsys, h.vruntime⟩⟩

instance (s : Scheduler) (c : Slot) (now : Nat) : Decidable (s.DeadlinesFit c now) :=
  decidable_of_iff (_ ∧ _ ∧ _) ⟨fun h => ⟨h.1, h.2.1, h.2.2⟩, fun h => ⟨h.charged, h.woken, h.ready⟩⟩

instance (s : Scheduler) (c : Slot) (now : Nat) (isPreemption : Bool) : Decidable (s.Advances c now isPreemption) :=
  inferInstanceAs (Decidable (ite (s.keepsSlice isPreemption = true) (_ ∧ _) (_ ∨ _ ∧ _)))

/-! ## The current task can be seen -/

/-- Only a task the scans find becomes current, and it keeps its generation while it is. -/
structure CurrentSeen (s : Scheduler) : Prop where
  sole : SoleRunner s
  scanned : ∀ c, s.current = some c → (s.tasks c).Scanned

theorem TaskMove.scanned {t t' : Task} (h : TaskMove t t') (hl : t.Live) (hs : t.Scanned) : t'.Scanned := by
  have hgen := ident_generation h.ident
  exact ⟨hgen ▸ hs.1, hgen ▸ hs.2.1, (h.live.2 hl).1⟩

section
variable {s : Scheduler}

theorem CurrentSeen.doSchedule (h : CurrentSeen s) (now : Nat) (trapFrame : Option TrapFrame) (pre : Bool) :
    CurrentSeen (doSchedule s now trapFrame pre).sched := by
  refine ⟨h.sole.doSchedule now trapFrame pre, fun c hc => ?_⟩
  have hmove := doSchedule_move s now trapFrame pre c
  rcases doSchedule_spec s now trapFrame pre with hst | ⟨frame, j, -, hsw⟩
  · rw [hst.current] at hc
    exact hmove.scanned (h.sole.current c hc) (h.scanned c hc)
  · rw [hsw.current] at hc
    obtain rfl := Option.some.inj hc
    exact hmove.scanned (runnable_live hsw.runnable) hsw.runnable.1

/-- A write that keeps the generation of a task and leaves it in use. -/
theorem CurrentSeen.setTask (h : CurrentSeen s) {i : Slot} {t : Task} (hs : SoleRunner (s.setTask i t))
    (ht : (s.tasks i).Scanned → t.Scanned) : CurrentSeen (s.setTask i t) :=
  ⟨hs, fun c hc => update_related (R := fun t t' => t.Scanned → t'.Scanned) (fun _ => id) ht c (h.scanned c hc)⟩

theorem CurrentSeen.called (h : CurrentSeen s) {e : SchedEvent} {k : ScheduleCall} (hk : scheduleCall s e = some k) :
    CurrentSeen k.sched := by
  have hsole := h.sole.called hk
  rcases scheduleCall_sched hk with heq | ⟨c, -, heq | ⟨now, ticks, heq⟩⟩
  · rw [heq]
    exact h
  · rw [heq] at hsole ⊢
    exact h.setTask hsole id
  · rw [heq] at hsole ⊢
    exact h.setTask hsole fun hs => ⟨hs.1, hs.2.1, by simp [Task.sleepUntil]⟩

theorem CurrentSeen.step (h : CurrentSeen s) {e : SchedEvent} (he : InterfaceCall s e) : CurrentSeen (schedStep s e) := by
  have hsole := h.sole.step he
  by_cases hscheduling : IsScheduling s e
  · rcases schedStep_call hscheduling with ⟨k, hk, hstep, -⟩ | ⟨-, -, hstep, -⟩
    · rw [hstep]
      exact (h.called hk).doSchedule k.now k.frame k.isPreemption
    · rw [hstep]
      exact h
  refine ⟨hsole, ?_⟩
  cases e with
  | init =>
    intro c hc
    rw [show (schedStep s .init).current = none from schedulerInit_current s] at hc
    cases hc
  | create serviceId domainId entryPc stackTop =>
    intro c hc
    simp only [schedStep, schedCall, taskCreate]
    split
    · exact h.scanned c hc
    · rename_i i hi
      have hci : c ≠ i := by
        rintro rfl
        exact h.sole.free_ne_current hi hc
      simp only [Function.update_of_ne hci]
      exact h.scanned c hc
  | terminate id =>
    intro c hc
    simp only [schedStep, schedCall] at hc ⊢
    rcases terminate_cases s id with heq | ⟨i, -, heq⟩
    · rw [heq] at hc ⊢
      exact h.scanned c hc
    · rw [heq] at hc ⊢
      dsimp only at hc
      split at hc
      · cases hc
      · rename_i hne
        have hci : c ≠ i := by rintro rfl; exact hne hc
        simp only [Function.update_of_ne hci]
        exact h.scanned c hc
  | setWeight task weight => exact (h.setTask hsole id).scanned
  | setSlice task sliceTicks => exact (h.setTask hsole id).scanned
  | setPolicy policy => cases policy <;> exact h.scanned
  | setPreemptLimit maxPreempts => exact h.scanned
  | start => exact h.scanned
  | stop => exact h.scanned
  | adopt task => exact he.elim
  | _ => exact absurd trivial hscheduling

theorem currentSeen_init (s₀ : Scheduler) : CurrentSeen (schedulerInit s₀) := by
  refine ⟨SoleRunner.init s₀, fun c hc => ?_⟩
  rw [schedulerInit_current] at hc
  cases hc

end

/-! ## The competing weights -/

section
variable {v : Nat} {s : Scheduler}

/-- After the wake scan the tasks that compete are those that were RUNNING, READY or due. -/
theorem wakeSleepers_activeWeight (s : Scheduler) (now : Nat) (i : Slot) :
    ((wakeSleepers s now).tasks i).activeWeight = (s.tasks i).demand now := by
  have hid := (wakeSleepers_move s now i).ident
  have hselectable := wakeSleepers_selectable s now i
  have hrunning := wakeSleepers_running s now i
  have hweight := ident_weight hid
  have hscanned : ((wakeSleepers s now).tasks i).Scanned ∧ ((wakeSleepers s now).tasks i).state = .running ↔
      (s.tasks i).Scanned ∧ (s.tasks i).state = .running := by
    rw [hrunning]
    refine and_congr_left fun hrun => ?_
    rw [wakeSleepers_of_running hrun]
  have hiff : ((wakeSleepers s now).tasks i).Scanned ∧
      (((wakeSleepers s now).tasks i).state = .ready ∨ ((wakeSleepers s now).tasks i).state = .running) ↔
      ((s.tasks i).Scanned ∧ (s.tasks i).state = .running) ∨ (s.tasks i).Runnable now := by
    rw [and_or_left, ← hscanned, ← hselectable]
    exact or_comm
  unfold Task.activeWeight Task.demand
  rw [hweight]
  exact if_congr hiff rfl rfl

theorem activeWeights_wakeSleepers (s : Scheduler) (now : Nat) : activeWeights (wakeSleepers s now).tasks = s.demand now := by
  simp only [activeWeights, Scheduler.demand, wakeSleepers_activeWeight]

theorem SlicesFit.demand_pos (h : SlicesFit s) (now : Nat) {c : Slot} (hscan : (s.tasks c).Scanned)
    (hrun : (s.tasks c).state = .running) : 0 < s.demand now := by
  have hc : (s.tasks c).demand now = (s.tasks c).weight := if_pos (Or.inl ⟨hscan, hrun⟩)
  have hweight := (h c).settings.weight_pos
  have hle : (s.tasks c).demand now ≤ s.demand now := List.le_sum_of_mem (List.mem_map_of_mem (List.mem_finRange c))
  omega

/-- What the tick adds to `V_sys`. -/
theorem SlicesFit.wake_rate (h : SlicesFit s) (now : Nat) {c : Slot} (hscan : (s.tasks c).Scanned)
    (hrun : (s.tasks c).state = .running) : (Lettuce.wakeSleepers s now).rate = 65536 / s.demand now := by
  rw [Scheduler.rate, activeWeightSum_eq fun i => (h.wakeSleepers now i).settings, activeWeights_wakeSleepers,
    if_pos (h.demand_pos now hscan hrun), eevdfScale]

/-- It moves exactly if the weights do not exceed the scale. -/
theorem SlicesFit.rate_pos_iff (h : SlicesFit s) (now : Nat) {c : Slot} (hscan : (s.tasks c).Scanned)
    (hrun : (s.tasks c).state = .running) : 0 < 65536 / s.demand now ↔ s.demand now ≤ 65536 := by
  have hpos := h.demand_pos now hscan hrun
  rw [Nat.div_pos_iff]
  exact ⟨fun h => h.2, fun h => ⟨hpos, h⟩⟩

/-- A woken task is lifted to `V_sys` and not past it. -/
theorem wake_eligible (hpolicy : s.policy = .eevdf) (now : Nat) (i : Slot) :
    ((wakeSleepers s now).tasks i).vruntime ≤ s.vsys ↔ (s.tasks i).vruntime ≤ s.vsys := by
  rw [wakeSleepers_tasks]
  split
  · by_cases hd : (s.tasks i).state = .sleeping ∧ (s.tasks i).sleepDeadlineTicks ≤ now
    · rw [Task.wake_of_due hd.1 hd.2, hpolicy, onTaskWake, eevdfOnTaskWake, align_vruntime]
      exact max_le_iff.trans (and_iff_left (Nat.le_refl _))
    · rw [Task.wake_of_not_due hd]
  · exact Iff.rfl

/-- A clock goes up by the charge unless it wraps. -/
theorem lt_wrapped_iff {n r : Nat} (hr : r ≤ 65536) : n < (n + r) % 2 ^ 64 ↔ 0 < r ∧ n + r < 2 ^ 64 := by
  constructor
  · intro h
    omega
  · rintro ⟨hpos, hfit⟩
    rw [Nat.mod_eq_of_lt hfit]
    omega

/-! ## One call -/

theorem keepsSlice_of_decisionState {p : Scheduler} {now : Nat} {trapFrame : Option TrapFrame} {pre : Bool}
    (hd : decisionState s now trapFrame pre = some p) : s.keepsSlice pre = false := by
  unfold decisionState at hd
  split at hd
  · cases hd
  · split at hd
    · cases hd
    · split at hd
      · cases hd
      · rename_i hkeeps
        exact Bool.eq_false_iff.2 hkeeps

/-- Where the deadlines fit, the charge before the decision is exact. -/
theorem prepared_charged (h : SlicesFit s) (hpolicy : s.policy = .eevdf) {c : Slot} {now : Nat} (hfit : s.DeadlinesFit c now)
    (hc : s.current = some c) (hscan : (s.tasks c).Scanned) (hrun : (s.tasks c).state = .running) (frame : TrapFrame) :
    (prepared s now frame).vsys = s.vsys + 65536 / s.demand now ∧
    (prepared s now frame).tasks c = ({ (s.tasks c).charged with context := frame.save, state := .ready } : Task).lifted
      (s.vsys + 65536 / s.demand now) ∧
    ∀ i, i ≠ c → (prepared s now frame).tasks i = (wakeSleepers s now).tasks i := by
  have hcharged := hfit.charged
  have hrate := h.wake_rate now hscan hrun
  have hvsys : s.vsys + (wakeSleepers s now).rate < 2 ^ 64 := by
    rw [hrate]
    simp only [uint64Max] at hcharged
    omega
  have hdeadline := Nat.lt_of_lt_of_le hcharged (show uint64Max ≤ 2 ^ 64 by decide)
  have hexact := prepared_exact hpolicy (h c).settings hc hrun hvsys (by rw [hrate]; exact hdeadline) frame
  rwa [hrate] at hexact

/-- All that compete in it have deadlines in range, and the charged task is one of them. -/
theorem prepared_inRange (h : SlicesFit s) (hpolicy : s.policy = .eevdf) {c : Slot} {now : Nat} (hfit : s.DeadlinesFit c now)
    (hc : s.current = some c) (hscan : (s.tasks c).Scanned) (hrun : (s.tasks c).state = .running) (frame : TrapFrame) :
    (prepared s now frame).Ready c ∧ ∀ i, (prepared s now frame).Ready i → ((prepared s now frame).tasks i).InRange := by
  obtain ⟨-, htask, hothers⟩ := prepared_charged h hpolicy hfit hc hscan hrun frame
  have hsettings := fun i => (h.prepared now frame i).settings
  refine ⟨?_, fun i hready => ?_⟩
  · unfold Scheduler.Ready
    rw [htask]
    exact ⟨⟨hscan.1, hscan.2.1, by simp [Task.lifted]⟩, rfl⟩
  by_cases hi : i = c
  · subst hi
    have hset := hsettings i
    rw [htask] at hset ⊢
    exact ⟨hset, hfit.charged, hfit.charged⟩
  · have hset := hsettings i
    have hrunnable : (s.tasks i).Runnable now := by
      rw [← wakeSleepers_selectable, ← hothers i hi]
      exact hready
    rw [hothers i hi, wakeSleepers_tasks, if_pos hrunnable.1] at hset ⊢
    by_cases hd : (s.tasks i).state = .sleeping ∧ (s.tasks i).sleepDeadlineTicks ≤ now
    · have hwoken := hfit.woken i hrunnable hd.1
      have halign : ({ s.tasks i with state := .ready } : Task).align s.vsys =
          ({ s.tasks i with state := .ready } : Task).lifted s.vsys := by
        obtain ⟨h1, h2, h3, h4⟩ := (h i).settings
        exact Task.Settings.align ⟨h1, h2, h3, h4⟩ (Nat.lt_of_lt_of_le hwoken (by decide))
      rw [Task.wake_of_due hd.1 hd.2, hpolicy, onTaskWake, eevdfOnTaskWake, halign] at hset ⊢
      exact ⟨hset, hwoken, hwoken⟩
    · rw [Task.wake_of_not_due hd] at hset ⊢
      have hstate : (s.tasks i).state = .ready := hrunnable.2.resolve_right hd
      obtain ⟨hdeadline, hrecorded⟩ := hfit.ready i ⟨hrunnable.1, hstate⟩
      exact ⟨hset, hdeadline, hrecorded⟩

/-- With `V_sys` standing still, a decision finds nobody eligible exactly if every competitor was beyond it. -/
theorem none_eligible_iff (h : SlicesFit s) (hpolicy : s.policy = .eevdf) {c : Slot} {now : Nat} (hfit : s.DeadlinesFit c now)
    (hc : s.current = some c) (hscan : (s.tasks c).Scanned) (hrun : (s.tasks c).state = .running) (frame : TrapFrame)
    (hzero : 65536 / s.demand now = 0) :
    (∀ i, ¬ (prepared s now frame).Eligible i) ↔ s.vsys < (s.tasks c).vruntime + 65536 / (s.tasks c).weight ∧
      ∀ i, i ≠ c → (s.tasks i).Runnable now → s.vsys < (s.tasks i).vruntime := by
  obtain ⟨hvsys, htask, hothers⟩ := prepared_charged h hpolicy hfit hc hscan hrun frame
  obtain ⟨hready, -⟩ := prepared_inRange h hpolicy hfit hc hscan hrun frame
  rw [hzero, Nat.add_zero] at hvsys htask
  have hcurrent : (prepared s now frame).Eligible c ↔ (s.tasks c).vruntime + 65536 / (s.tasks c).weight ≤ s.vsys := by
    have hselectable : ((prepared s now frame).tasks c).Selectable := hready
    rw [Scheduler.Eligible, hvsys, and_iff_right hselectable, htask]
    simp only [Task.lifted, Task.charged, Task.rate, eevdfScale]
    omega
  have hother : ∀ i, i ≠ c → ((prepared s now frame).Eligible i ↔ (s.tasks i).Runnable now ∧ (s.tasks i).vruntime ≤ s.vsys) := by
    intro i hi
    rw [Scheduler.Eligible, hvsys, hothers i hi, wakeSleepers_selectable, wake_eligible hpolicy]
  constructor
  · intro hnone
    refine ⟨Nat.lt_of_not_le fun hle => hnone c (hcurrent.2 hle), fun i hi hr => Nat.lt_of_not_le fun hle => ?_⟩
    exact hnone i ((hother i hi).2 ⟨hr, hle⟩)
  · rintro ⟨hbeyond, hall⟩ i hel
    by_cases hi : i = c
    · rw [hi, hcurrent] at hel
      omega
    · obtain ⟨hr, hle⟩ := (hother i hi).1 hel
      have := hall i hi hr
      omega

/-- While the slice lasts both clocks are charged, and that is all. -/
theorem tick_advances_iff (h : SlicesFit s) (hpolicy : s.policy = .eevdf) {c : Slot} (now : Nat) (hscan : (s.tasks c).Scanned)
    (hrun : (s.tasks c).state = .running) :
    (s.vsys < (onTick (wakeSleepers s now) c 1).vsys ∧
      (s.tasks c).vruntime < ((onTick (wakeSleepers s now) c 1).tasks c).vruntime) ↔
      s.demand now ≤ 65536 ∧ s.ClocksFit c now := by
  have htask := wakeSleepers_of_running hrun now
  have hpolicy' : (wakeSleepers s now).policy = .eevdf := by simpa using hpolicy
  have hweight := (h c).settings.rate_ge
  have hrate : (s.tasks c).rate = 65536 / (s.tasks c).weight := rfl
  have hvruntime := lt_wrapped_iff (n := (s.tasks c).vruntime) (Task.rate_le (s.tasks c))
  have hvsys := lt_wrapped_iff (n := s.vsys) (Nat.div_le_self 65536 (s.demand now))
  rw [onTick_wrapped (c := c) hpolicy' (by rw [htask]; exact (h c).settings) (by rw [htask]; exact hrun)]
  simp only [Scheduler.setTask, Function.update_self, htask, wakeSleepers_vsys, h.wake_rate now hscan hrun]
  rw [hvruntime, hvsys, h.rate_pos_iff now hscan hrun, hrate]
  rw [hrate] at hweight
  constructor
  · rintro ⟨⟨hle, hfit⟩, -, hfit'⟩
    exact ⟨hle, hfit, hfit'⟩
  · rintro ⟨hle, hfit, hfit'⟩
    exact ⟨⟨hle, hfit⟩, by omega, hfit'⟩

/-- One call of `do_schedule` that charges task `c`. -/
theorem call_advances_iff {k : ScheduleCall} (h : SlicesFit k.sched) (hpolicy : k.sched.policy = .eevdf) (hch : k.charges = true)
    {c : Slot} (hc : k.sched.current = some c) (hscan : (k.sched.tasks c).Scanned)
    (hfit : k.sched.keepsSlice k.isPreemption = false → k.sched.DeadlinesFit c k.now) :
    (k.sched.vsys < k.result.vsys ∧ (k.sched.tasks c).vruntime < (k.result.tasks c).vruntime) ↔
      k.sched.Advances c k.now k.isPreemption := by
  obtain ⟨ha, hframe, c', hc', hrun⟩ := charges_eq_true.1 hch
  obtain rfl : c = c' := Option.some.inj (hc.symm.trans hc')
  unfold ScheduleCall.result Scheduler.Advances
  rcases doSchedule_decision k.sched k.now k.frame k.isPreemption with ⟨-, -, hidle⟩ |
    ⟨c', frame, -, -, -, hc', -, hpre, hslice, heq⟩ | ⟨frame, hd, -, -, heq⟩
  · rcases hidle with hidle | hidle
    · rw [ha] at hidle; cases hidle
    · rw [hidle] at hframe; cases hframe
  · -- the slice is not over
    obtain rfl : c = c' := Option.some.inj (hc.symm.trans hc')
    rw [heq, if_pos (keepsSlice_eq_true.2 ⟨hpre, c, hc, hrun, hslice⟩)]
    exact tick_advances_iff h hpolicy k.now hscan hrun
  · have hover := keepsSlice_of_decisionState hd
    have hfit' := hfit hover
    have hrate := (h c).settings.rate_ge
    have hpos := h.rate_pos_iff k.now hscan hrun
    obtain ⟨hvsys, htask, -⟩ := prepared_charged h hpolicy hfit' hc hscan hrun frame
    obtain ⟨hready, hrange⟩ := prepared_inRange h hpolicy hfit' hc hscan hrun frame
    have hpolicy' : (prepared k.sched k.now frame).policy = .eevdf := (prepared_mech k.sched k.now frame).2.2.1.trans hpolicy
    obtain ⟨j, -, hsel⟩ := selectNext_selects hpolicy' hrange hready frame k.isPreemption
    -- the charged task moves whatever is decided
    have hvruntime : (k.sched.tasks c).vruntime <
        ((selectNext (prepared k.sched k.now frame) frame k.isPreemption).sched.tasks c).vruntime := by
      rw [hsel.vruntime, htask]
      simp only [Task.lifted, Task.charged]
      omega
    rw [heq, and_iff_left hvruntime, hover, if_neg Bool.false_ne_true, ← hpos]
    by_cases hzero : 65536 / k.sched.demand k.now = 0
    · rw [← none_eligible_iff h hpolicy hfit' hc hscan hrun frame hzero, hzero, ← hsel.vsys_grows_iff]
      simp only [Nat.lt_irrefl, false_or]
      rw [hvsys, hzero, Nat.add_zero]
    · have hmoves := Nat.pos_of_ne_zero hzero
      refine iff_of_true (Nat.lt_of_lt_of_le ?_ hsel.vsys_le) (Or.inl hmoves)
      rw [hvsys]
      exact Nat.lt_add_of_pos_right hmoves

/-- The slice a `yield` drops plays no part. -/
theorem dropSlice_tasks (s : Scheduler) (c i : Slot) :
    ∃ n, (s.setTask c (s.tasks c).dropSlice).tasks i = { s.tasks i with timeSliceTicks := n } :=
  update_related (R := fun t t' => ∃ n, t' = { t with timeSliceTicks := n }) (fun t => ⟨t.timeSliceTicks, rfl⟩) ⟨_, rfl⟩ i

theorem dropSlice_demand (s : Scheduler) (c : Slot) (now : Nat) :
    (s.setTask c (s.tasks c).dropSlice).demand now = s.demand now := by
  have hdemand : ∀ i, ((s.setTask c (s.tasks c).dropSlice).tasks i).demand now = (s.tasks i).demand now := by
    intro i
    obtain ⟨n, hn⟩ := dropSlice_tasks s c i
    rw [hn]
    rfl
  unfold Scheduler.demand
  simp only [hdemand]

theorem Scheduler.DeadlinesFit.dropSlice {c : Slot} {now : Nat} (h : s.DeadlinesFit c now) :
    (s.setTask c (s.tasks c).dropSlice).DeadlinesFit c now := by
  refine ⟨?_, fun i hrunnable hstate => ?_, fun i hready => ?_⟩
  · obtain ⟨n, hn⟩ := dropSlice_tasks s c c
    rw [hn, dropSlice_demand]
    exact h.charged
  · obtain ⟨n, hn⟩ := dropSlice_tasks s c i
    rw [hn] at hrunnable hstate ⊢
    exact h.woken i hrunnable hstate
  · obtain ⟨n, hn⟩ := dropSlice_tasks s c i
    unfold Scheduler.Ready at hready
    rw [hn] at hready ⊢
    exact h.ready i hready

theorem advances_dropSlice (c : Slot) (now : Nat) :
    (s.setTask c (s.tasks c).dropSlice).Advances c now false ↔ s.Advances c now false := by
  have hrunnable : ∀ i, ((s.setTask c (s.tasks c).dropSlice).tasks i).Runnable now = (s.tasks i).Runnable now := by
    intro i
    obtain ⟨n, hn⟩ := dropSlice_tasks s c i
    rw [hn]
    rfl
  have hvruntime : ∀ i, ((s.setTask c (s.tasks c).dropSlice).tasks i).vruntime = (s.tasks i).vruntime := by
    intro i
    obtain ⟨n, hn⟩ := dropSlice_tasks s c i
    rw [hn]
  have hweight : ((s.setTask c (s.tasks c).dropSlice).tasks c).weight = (s.tasks c).weight := by
    obtain ⟨n, hn⟩ := dropSlice_tasks s c c
    rw [hn]
  have hover : ∀ p : Scheduler, p.keepsSlice false = false := fun _ => rfl
  unfold Scheduler.Advances
  simp only [hover, Bool.false_eq_true, if_false, dropSlice_demand, hrunnable, hvruntime, hweight]
  rfl

end

/-- **When a charge moves the clocks**: in every reachable state under EEVDF, a tick or yield that charges the running task `c`
advances both `V_sys` and the task's vruntime if and only if, while its slice lasts, the weights of the tasks that compete sum
to at most 65536 and neither clock wraps, and, when the event decides, the weights sum to at most 65536 or all that compete
are beyond `V_sys`; the deadlines of such a decision have to fit. -/
theorem charge_advances_clocks_iff (s₀ : Scheduler) {h : SchedHistory} {s : Scheduler}
    (r : Run InterfaceCall schedStep (schedulerInit s₀) h s) (hpolicy : s.policy = .eevdf)
    {e : SchedEvent} (he : IsTickOrYield s e) {k : ScheduleCall} (hk : scheduleCall s e = some k) (hch : k.charges = true)
    {c : Slot} (hc : s.current = some c) (hfit : s.keepsSlice k.isPreemption = false → s.DeadlinesFit c k.now) :
    (s.vsys < (schedStep s e).vsys ∧ (s.tasks c).vruntime < ((schedStep s e).tasks c).vruntime) ↔
      s.Advances c k.now k.isPreemption := by
  have hseen : CurrentSeen s := r.invariant (currentSeen_init s₀) fun _ _ he hs => hs.step he
  have hslices : SlicesFit s := r.invariant (slicesFit_init s₀) fun _ _ he hs => hs.step he
  cases e with
  | tick now frame =>
    obtain rfl := Option.some.inj hk
    exact call_advances_iff hslices hpolicy hch hc (hseen.scanned c hc) hfit
  | yield now frame =>
    simp only [scheduleCall, hc, Option.map_some, Option.some.injEq] at hk
    obtain rfl := hk
    have hstep : schedStep s (.yield now frame) =
        (doSchedule (s.setTask c (s.tasks c).dropSlice) now.toNat frame false).sched := by
      simp only [schedStep, schedCall, schedulerYield, hc]
    have hself : (s.setTask c (s.tasks c).dropSlice).tasks c = (s.tasks c).dropSlice := Function.update_self ..
    have hdropped : SlicesFit (s.setTask c (s.tasks c).dropSlice) :=
      hslices.setTask ((hslices c).congr rfl rfl rfl (by decide : 0 < 2 ^ 32))
    have hscan : ((s.setTask c (s.tasks c).dropSlice).tasks c).Scanned := by
      rw [hself]
      exact hseen.scanned c hc
    have hiff := call_advances_iff hdropped hpolicy hch hc hscan fun hover => (hfit hover).dropSlice
    rw [advances_dropSlice, hself] at hiff
    rw [hstep]
    exact hiff
  | _ => exact he.elim

/-- `n` tasks of the greatest weight, started under EEVDF and ticked once: the first one runs. -/
def heavyTasks (n : Nat) : SchedHistory × Scheduler :=
  traceFrom schedStep [] (schedulerInit schedulerBoot)
    (.setPolicy .eevdf :: (List.replicate n (.create 10 100 0x1000 0x2000) ++
      ((List.finRange maxTasks).take n).map (fun i => .setWeight i 10240) ++
      [.start, .tick 0 (some (initialContext 0 0).restore)]))

theorem heavyTasks_run (n : Nat) : Run InterfaceCall schedStep (schedulerInit schedulerBoot) (heavyTasks n).1 (heavyTasks n).2 := by
  refine Run.start.trace (admits_of_mem _ fun s e he => ?_)
  simp only [List.mem_cons, List.mem_append, List.mem_replicate, List.mem_map, List.not_mem_nil, or_false] at he
  rcases he with rfl | (⟨-, rfl⟩ | ⟨i, -, rfl⟩) | rfl | rfl
  all_goals trivial

/-- Seven of them, of which six have yielded: the last one runs, and the others are beyond `V_sys`. -/
def sixYields : SchedHistory × Scheduler :=
  traceFrom schedStep (heavyTasks 7).1 (heavyTasks 7).2 (List.replicate 6 (.yield 1 (some (initialContext 0 0).restore)))

/-- The weights are too great, but the seventh yield moves both clocks: nobody is eligible. -/
theorem charge_advances_clocks_iff_seventh :
    let s := sixYields.2
    let e : SchedEvent := .yield 1 (some (initialContext 0 0).restore)
    s.demand 1 = 71680 ∧ s.vsys = 0 ∧ s.vsys < (schedStep s e).vsys ∧
      (s.tasks 6).vruntime < ((schedStep s e).tasks 6).vruntime := by
  intro s e
  let k : ScheduleCall := ⟨s.setTask 6 (s.tasks 6).dropSlice, (1 : BitVec 64).toNat, some (initialContext 0 0).restore, false⟩
  have hfacts : s.policy = .eevdf ∧ s.current = some 6 ∧ s.demand 1 = 71680 ∧ s.vsys = 0 ∧ k.charges = true := by
    decide +kernel
  have hfit : s.DeadlinesFit 6 k.now := by decide +kernel
  have hadvances : s.Advances 6 k.now k.isPreemption := by decide +kernel
  obtain ⟨hpolicy, hc, hdemand, hvsys, hch⟩ := hfacts
  have he : IsTickOrYield s e := trivial
  have hk : scheduleCall s e = some k := by simp only [e, k, scheduleCall, hc, Option.map_some]
  have r : Run InterfaceCall schedStep (schedulerInit schedulerBoot) sixYields.1 s := by
    refine (heavyTasks_run 7).trace (admits_of_mem _ fun s e he => ?_)
    rw [List.eq_of_mem_replicate he]
    trivial
  exact ⟨hdemand, hvsys, (charge_advances_clocks_iff schedulerBoot r hpolicy he hk hch hc fun _ => hfit).2 hadvances⟩

/-- Seven of them: the next tick charges the running task 6 and `V_sys` stands still. -/
theorem vsys_stands_still :
    let s := (heavyTasks 7).2
    let e : SchedEvent := .tick 1 (some (initialContext 0 0).restore)
    Run InterfaceCall schedStep (schedulerInit schedulerBoot) (heavyTasks 7).1 s ∧ s.policy = .eevdf ∧
      s.OnCpu firstSlot ∧ ((schedStep s e).tasks firstSlot).vruntime = (s.tasks firstSlot).vruntime + 6 ∧
      ¬ s.vsys < (schedStep s e).vsys := by
  intro s e
  have hfacts : s.policy = .eevdf ∧ s.OnCpu firstSlot ∧
      ((schedStep s e).tasks firstSlot).vruntime = (s.tasks firstSlot).vruntime + 6 ∧
      ¬ s.vsys < (schedStep s e).vsys := by decide +kernel
  exact ⟨heavyTasks_run 7, hfacts⟩

end Lettuce
