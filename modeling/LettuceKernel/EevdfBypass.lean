import LettuceKernel.TaskSlices
import Mathlib.Data.Fintype.Card
/-!
# Bounded bypass under EEVDF

A READY task waits with deadline key `d`. Whatever a decision selects instead has a vruntime of at
most `d`: it is eligible with no later key, or it is eligible and the waiting task is not, or it has the least
vruntime of all. Between two selections a task is charged at least once, six units or more, and
no vruntime ever falls, so `allowance d` of its vruntime pays for its selections.

That needs exact arithmetic over an unbounded run. `V_sys` cannot run away: once it has passed
`d`, a preempted task is lifted past `d` too and is not selected again, so `V_sys` has no more than one
slice left for each task still at or before `d` (`Bypassed.budget`).
-/

namespace Lettuce

open Runs FirstMins

/-- No virtual time passes this while a task waits. -/
def bypassLimit : Nat := 2 ^ 63 + 18 * 2 ^ 48

/-- A lower bound of the vruntime a task next competes with. -/
def Scheduler.reach (s : Scheduler) (i : Slot) : Nat := (s.tasks i).vruntime + if s.OnCpu i then 6 else 0

/-- How often a task of vruntime `v` can be selected up to `d`. -/
def allowance (d v : Nat) : Nat := if v > d then 0 else (d - v) / 6 + 1

/-- The tasks at or before `d` that are off the processor. -/
def Scheduler.contenders (s : Scheduler) (d : Nat) : Finset Slot :=
  Finset.univ.filter fun i => (s.tasks i).vruntime ≤ d ∧ ¬ s.OnCpu i

/-- What is left of the running task's slice. -/
def Scheduler.sliceLeft (s : Scheduler) : Nat :=
  match s.current with
  | none => 0
  | some c => if (s.tasks c).state = .running then (s.tasks c).timeSliceTicks else 0

/-- `task` is READY with key `d`, and all times stay below the limit until it is selected. -/
structure Bypassed (task : Slot) (d : Nat) (s : Scheduler) : Prop where
  clock : ClockBound bypassLimit s
  slices : SlicesFit s
  ready : s.Ready task
  key : (s.tasks task).key = d
  deadline : d < 2 ^ 63 + 2 ^ 48
  runner : ∀ c, s.OnCpu c → (s.tasks c).vruntime + 65536 * (s.tasks c).timeSliceTicks + 65536 ≤ bypassLimit
  budget : s.vsys + 65536 * s.sliceLeft + 2 ^ 48 * (s.contenders d).card ≤ bypassLimit

theorem allowance_anti {d v v' : Nat} (h : v ≤ v') : allowance d v' ≤ allowance d v := by
  unfold allowance
  split
  · exact Nat.zero_le _
  · rw [if_neg (by omega)]
    omega

/-- A selection at or before `d` is paid for by the next charge. -/
theorem allowance_pays {d v : Nat} (h : v ≤ d) : 1 + allowance d (v + 6) ≤ allowance d v := by
  unfold allowance
  split
  · rw [if_neg (by omega)]
    omega
  · rw [if_neg (by omega)]
    omega

/-! ## Times only grow -/

section
variable {v : Nat} {s : Scheduler}

theorem bypassLimit_tick : bypassLimit + 65536 ≤ clockLimit := by decide

theorem bypassLimit_le : bypassLimit ≤ clockLimit := by decide

theorem wake_vruntime (h : ClockBound v s) (hv : v ≤ clockLimit) (now : Nat) (i : Slot) :
    (s.tasks i).vruntime ≤ ((wakeSleepers s now).tasks i).vruntime := by
  rw [h.wake_tasks hv]
  split
  · exact Nat.le_max_left _ _
  · exact Nat.le_refl _

/-- A READY task sleeps through steps 1 and 2. -/
theorem wakeSleepers_of_ready {i : Slot} (hi : s.Ready i) (now : Nat) : (wakeSleepers s now).tasks i = s.tasks i := by
  rw [wakeSleepers_tasks, if_pos hi.1]
  exact Task.wake_of_not_due (by simp [hi.2])

theorem prepared_of_ready (h : ClockBound v s) (hv : v + 65536 ≤ clockLimit) {i : Slot} (hi : s.Ready i) (now : Nat)
    (frame : TrapFrame) : (prepared s now frame).tasks i = s.tasks i := by
  rcases running_or_not s with ⟨c, hc, hrun⟩ | hno
  · have hic : i ≠ c := by
      rintro rfl
      rw [hi.2] at hrun
      cases hrun
    rw [(h.prepared_running hv now frame hc hrun).2.2 i hic, wakeSleepers_of_ready hi]
  · rw [prepared_of_not_running s now frame hno, wakeSleepers_of_ready hi]

/-- What a task competes with at the decision. -/
theorem reach_le_prepared (h : ClockBound v s) (hv : v + 65536 ≤ clockLimit) (now : Nat) (frame : TrapFrame) (i : Slot) :
    s.reach i ≤ ((prepared s now frame).tasks i).vruntime := by
  have hwoken := wake_vruntime h (by omega) now i
  unfold Scheduler.reach
  rcases running_or_not s with ⟨c, hc, hrun⟩ | hno
  · obtain ⟨-, hpc, hothers⟩ := h.prepared_running hv now frame hc hrun
    by_cases hic : i = c
    · have hrate := (h.tasks c).settings.rate_ge
      rw [hic, hpc, if_pos ⟨hc, hrun⟩]
      exact Nat.le_trans (Nat.add_le_add_left hrate _) (Nat.le_max_left _ _)
    · rw [hothers i hic, if_neg (fun hon => hic (Option.some.inj (hon.1.symm.trans hc)))]
      exact hwoken
  · rw [prepared_of_not_running s now frame hno, if_neg (fun hon => hno i hon.1 hon.2)]
    exact hwoken

/-- With `V_sys` past `d`, whoever is at or before `d` at the decision was off the processor. -/
theorem prepared_contender (h : ClockBound v s) (hv : v + 65536 ≤ clockLimit) {now : Nat} {frame : TrapFrame} {d : Nat}
    (hd : d < (prepared s now frame).vsys) {i : Slot} (hi : ((prepared s now frame).tasks i).vruntime ≤ d) :
    i ∈ s.contenders d := by
  have hreach := reach_le_prepared h hv now frame i
  have hoff : ¬ s.OnCpu i := by
    rintro ⟨hc, hrun⟩
    obtain ⟨hvsys, hpc, -⟩ := h.prepared_running hv now frame hc hrun
    have hmax : s.vsys + (wakeSleepers s now).rate ≤ ((prepared s now frame).tasks i).vruntime := by
      rw [hpc]
      exact Nat.le_max_right _ _
    omega
  unfold Scheduler.reach at hreach
  rw [if_neg hoff] at hreach
  simp only [Scheduler.contenders, Finset.mem_filter, Finset.mem_univ, true_and]
  exact ⟨by omega, hoff⟩

theorem prepared_vsys (h : ClockBound v s) (hv : v + 65536 ≤ clockLimit) (now : Nat) (frame : TrapFrame) :
    (prepared s now frame).vsys ≤ s.vsys + 65536 := by
  rcases running_or_not s with ⟨c, hc, hrun⟩ | hno
  · have hrate := (wakeSleepers s now).rate_le
    rw [(h.prepared_running hv now frame hc hrun).1]
    omega
  · rw [prepared_of_not_running s now frame hno, wakeSleepers_vsys]
    omega

end

/-! ## The selected task -/

section
variable {p s' : Scheduler} {j task : Slot}

/-- Whichever way it was chosen, it is not later than the key of any READY task. -/
theorem Selects.vruntime_le (h : Selects p j s') (ht : p.Ready task) : (p.tasks j).vruntime ≤ (p.tasks task).key := by
  have hkey := (p.tasks task).vruntime_le_key
  rcases h.choice with ⟨hmin, -⟩ | ⟨-, hmin, -⟩
  · by_cases hel : (p.tasks task).vruntime ≤ p.vsys
    · exact Nat.le_trans (p.tasks j).vruntime_le_key (hmin.least task ⟨ht, hel⟩)
    · have := hmin.candidate.2
      omega
  · exact Nat.le_trans (hmin.least task ht) hkey

/-- A task that was passed over keeps its key. -/
theorem Selects.key_other (h : Selects p j s') {i : Slot} (hij : i ≠ j) : (s'.tasks i).key = (p.tasks i).key := by
  rw [h.others i hij]
  split
  · have hle := (p.tasks i).vruntime_le_key
    exact if_neg (by simp only; omega)
  · rfl

theorem Selects.ready_other (h : Selects p j s') {i : Slot} (hi : p.Ready i) (hij : i ≠ j) : s'.Ready i := by
  unfold Scheduler.Ready
  rw [h.others i hij]
  split
  · exact hi
  · exact hi

end

/-! ## The invariant -/

section
variable {task : Slot} {d : Nat} {s : Scheduler}

theorem mem_contenders {i : Slot} : i ∈ s.contenders d ↔ (s.tasks i).vruntime ≤ d ∧ ¬ s.OnCpu i := by
  simp [Scheduler.contenders]

theorem contenders_card (s : Scheduler) (d : Nat) : (s.contenders d).card ≤ 16 := by
  have hle := Finset.card_le_univ (s.contenders d)
  simpa using hle

theorem Bypassed.waiting (h : Bypassed task d s) : task ∈ s.contenders d := by
  refine mem_contenders.2 ⟨?_, fun hon => ?_⟩
  · rw [← h.key]
    exact Task.vruntime_le_key _
  · have hready := h.ready.2
    rw [hon.2] at hready
    cases hready

theorem Bypassed.chargeWithin (h : Bypassed task d s) (now : Nat) : ChargeWithin s now bypassLimit := by
  intro c hc hrun
  have hrunner := h.runner c ⟨hc, hrun⟩
  have hbudget := h.budget
  have hcard : 0 < (s.contenders d).card := Finset.card_pos.2 ⟨task, h.waiting⟩
  have h1 := (s.tasks c).rate_le
  have h2 := (wakeSleepers s now).rate_le
  constructor
  · omega
  · omega

/-- The running task uses a tick of its slice. -/
theorem Bypassed.charge (h : Bypassed task d s) (now : Nat) {c : Slot} (hc : s.current = some c)
    (hrun : (s.tasks c).state = .running) (hslice : 1 < (s.tasks c).timeSliceTicks) :
    Bypassed task d (onTick (wakeSleepers s now) c 1) ∧ ∀ i, s.reach i ≤ (onTick (wakeSleepers s now) c 1).reach i := by
  have hclock := h.clock.charge bypassLimit_le (Nat.le_refl _) (h.chargeWithin now) hc hrun
  have hslices := (h.slices.wakeSleepers now).onTick c
  have hrate := (wakeSleepers s now).rate_le
  obtain ⟨hcur, hvsys, hself, hother⟩ := h.clock.onTick_running bypassLimit_le now hc hrun
  generalize onTick (wakeSleepers s now) c 1 = r at hcur hvsys hself hother hclock hslices ⊢
  have hon : ∀ i, r.OnCpu i ↔ i = c := Scheduler.OnCpu.iff_eq ⟨hcur, by rw [hself]; exact hrun⟩
  have hon' : ∀ i, s.OnCpu i ↔ i = c := Scheduler.OnCpu.iff_eq ⟨hc, hrun⟩
  have hgrow : ∀ i, (s.tasks i).vruntime ≤ (r.tasks i).vruntime := by
    intro i
    by_cases hi : i = c
    · rw [hi, hself]
      exact Nat.le_add_right _ _
    · rw [hother i hi]
      exact wake_vruntime h.clock bypassLimit_le now i
  have htask : r.tasks task = s.tasks task := by
    have hne : task ≠ c := by
      rintro rfl
      have := h.ready.2
      rw [hrun] at this
      cases this
    rw [hother task hne, wakeSleepers_of_ready h.ready]
  refine ⟨⟨hclock, hslices, ?_, ?_, h.deadline, ?_, ?_⟩, ?_⟩
  · simpa only [Scheduler.Ready, htask] using h.ready
  · rw [htask]
    exact h.key
  · intro i hi
    obtain rfl := (hon i).1 hi
    have hrunner := h.runner i ((hon' i).2 rfl)
    have hrate := (s.tasks i).rate_le
    rw [hself]
    simp only [Task.charged, Task.chargeSlice]
    rw [if_pos (by omega)]
    omega
  · have hbudget := h.budget
    have hleft : s.sliceLeft = (s.tasks c).timeSliceTicks := by simp [Scheduler.sliceLeft, hc, hrun]
    have hleft' : r.sliceLeft = (s.tasks c).timeSliceTicks - 1 := by
      have hstate : (s.tasks c).charged.state = .running := hrun
      simp only [Scheduler.sliceLeft, hcur, hself, if_pos hstate]
      exact if_pos (Nat.le_of_lt hslice)
    have hcard : (r.contenders d).card ≤ (s.contenders d).card := by
      refine Finset.card_le_card fun i hi => ?_
      rw [mem_contenders, hon] at hi
      rw [mem_contenders, hon']
      exact ⟨Nat.le_trans (hgrow i) hi.1, hi.2⟩
    rw [hleft] at hbudget
    rw [hleft']
    omega
  · intro i
    have := hgrow i
    simp only [Scheduler.reach, hon, hon']
    omega

/-- The budget after a decision, once the slices fit. -/
theorem budget_of_selects {p s' : Scheduler} {j : Slot} (h : Bypassed task d s) {now : Nat} {frame : TrapFrame}
    (hp : p = prepared s now frame) (hsel : Selects p j s') (hj : (p.tasks j).vruntime ≤ d)
    (hleft : s'.sliceLeft < 2 ^ 32) : s'.vsys + 65536 * s'.sliceLeft + 2 ^ 48 * (s'.contenders d).card ≤ bypassLimit := by
  have hd := h.deadline
  by_cases hpast : s'.vsys ≤ d
  · have hcard := contenders_card s' d
    unfold bypassLimit
    omega
  · -- no jump: the selected task is not past `d`
    have hvsys : s'.vsys = p.vsys := by
      rcases hsel.choice with ⟨-, heq⟩ | ⟨-, -, heq⟩
      · exact heq
      · omega
    have hpast' : d < (prepared s now frame).vsys := by
      rw [← hp]
      omega
    have hsub : s'.contenders d ⊆ (s.contenders d).erase j := by
      intro i hi
      rw [mem_contenders, hsel.onCpu, hsel.vruntime, hp] at hi
      rw [Finset.mem_erase]
      exact ⟨hi.2, prepared_contender h.clock bypassLimit_tick hpast' hi.1⟩
    have hmem : j ∈ s.contenders d := prepared_contender h.clock bypassLimit_tick hpast' (hp ▸ hj)
    have hcard := Finset.card_le_card hsub
    rw [Finset.card_erase_of_mem hmem] at hcard
    have hpos : 0 < (s.contenders d).card := Finset.card_pos.2 ⟨j, hmem⟩
    have hbudget := h.budget
    have hgrow := prepared_vsys h.clock bypassLimit_tick now frame
    rw [← hp] at hgrow
    rw [hvsys]
    omega

/-- A decision passes `task` by. -/
theorem Bypassed.decide (h : Bypassed task d s) (now : Nat) (frame : TrapFrame) (pre : Bool)
    (hpass : (pickNext (prepared s now frame) (prepared s now frame).current).2 ≠ some task) :
    ∃ j, (pickNext (prepared s now frame) (prepared s now frame).current).2 = some j ∧
      Bypassed task d (selectNext (prepared s now frame) frame pre).sched ∧
      ∀ i, (if j = i then 1 else 0) + allowance d ((selectNext (prepared s now frame) frame pre).sched.reach i) ≤
        allowance d (s.reach i) := by
  have hclock := h.clock.prepared (Nat.le_refl _) bypassLimit_le (h.chargeWithin now) frame
  have htask := prepared_of_ready h.clock bypassLimit_tick h.ready now frame
  have hreach := reach_le_prepared h.clock bypassLimit_tick now frame
  have hslices := h.slices.prepared now frame
  have hcur : ∀ c, (prepared s now frame).current = some c → ((prepared s now frame).tasks c).state ≠ .running := by
    intro c hc
    rw [(prepared_mech s now frame).1] at hc
    exact prepared_current_ne_running s now frame hc
  have hready : (prepared s now frame).Ready task := by
    simpa only [Scheduler.Ready, htask] using h.ready
  obtain ⟨hclock', -⟩ := hclock.selectNext bypassLimit_le hcur frame pre
  have hslices' := hslices.selectNext frame pre
  obtain ⟨j, hpick, hsel⟩ := selectNext_selects hclock.policy (fun i _ => (hclock.tasks i).inRange bypassLimit_le) hready frame pre
  have hbudget := fun hj hleft => budget_of_selects h (j := j) rfl hsel hj hleft
  generalize (selectNext (prepared s now frame) frame pre).sched = r at *
  have hne : task ≠ j := by
    rintro rfl
    exact hpass hpick
  have hj : ((prepared s now frame).tasks j).vruntime ≤ d := by
    rw [← h.key, ← htask]
    exact hsel.vruntime_le hready
  have hleft : r.sliceLeft = (r.tasks j).timeSliceTicks := by
    simp [Scheduler.sliceLeft, hsel.current, ((hsel.onCpu j).2 rfl).2]
  have hslice := (hslices' j).timeSlice
  refine ⟨j, hpick, ⟨hclock', hslices', hsel.ready_other hready hne, ?_, h.deadline, ?_, hbudget hj (by rw [hleft]; exact hslice)⟩, ?_⟩
  · rw [hsel.key_other hne, htask]
    exact h.key
  · intro c hc
    obtain rfl := (hsel.onCpu c).1 hc
    have hd := h.deadline
    rw [hsel.vruntime]
    unfold bypassLimit
    omega
  · intro i
    have hi := hreach i
    simp only [Scheduler.reach, hsel.onCpu, hsel.vruntime] at hi ⊢
    by_cases hji : j = i
    · subst hji
      rw [if_pos rfl, if_pos rfl]
      exact Nat.le_trans (allowance_pays hj) (allowance_anti hi)
    · rw [if_neg hji, if_neg (fun h => hji h.symm), Nat.zero_add]
      exact allowance_anti hi

/-- Dropping the slice of the current task changes nothing here. -/
theorem Bypassed.dropSlice (h : Bypassed task d s) (c : Slot) :
    Bypassed task d (s.setTask c (s.tasks c).dropSlice) ∧
      ∀ i, (s.setTask c (s.tasks c).dropSlice).reach i = s.reach i := by
  have htask : ∀ i, (s.setTask c (s.tasks c).dropSlice).tasks i = if i = c then (s.tasks i).dropSlice else s.tasks i := by
    intro i
    by_cases hi : i = c
    · subst hi; simp [Scheduler.setTask]
    · simp [Scheduler.setTask, hi]
  have hvr : ∀ i, ((s.setTask c (s.tasks c).dropSlice).tasks i).vruntime = (s.tasks i).vruntime := by
    intro i
    rw [htask]
    split <;> rfl
  have hon : ∀ i, (s.setTask c (s.tasks c).dropSlice).OnCpu i ↔ s.OnCpu i := by
    intro i
    unfold Scheduler.OnCpu
    rw [htask]
    split <;> exact Iff.rfl
  have hleft : (s.setTask c (s.tasks c).dropSlice).sliceLeft ≤ s.sliceLeft := by
    unfold Scheduler.sliceLeft
    rw [show (s.setTask c (s.tasks c).dropSlice).current = s.current from rfl]
    cases s.current with
    | none => exact Nat.le_refl _
    | some j =>
      dsimp only
      rw [htask]
      by_cases hj : j = c
      · simp [hj, Task.dropSlice]
      · simp [hj]
  have hcontenders : (s.setTask c (s.tasks c).dropSlice).contenders d = s.contenders d := by
    ext i
    simp only [mem_contenders, hvr, hon]
  refine ⟨⟨h.clock.setTask ((h.clock.tasks c).congr rfl rfl rfl rfl), ?_, ?_, ?_, h.deadline, ?_, ?_⟩, ?_⟩
  · exact h.slices.setTask ((h.slices c).congr rfl rfl rfl (by decide : 0 < 2 ^ 32))
  · unfold Scheduler.Ready
    rw [htask]
    split <;> exact h.ready
  · rw [htask, ← h.key]
    split <;> rfl
  · intro i hi
    have hrunner := h.runner i ((hon i).1 hi)
    rw [htask]
    split
    · simp only [Task.dropSlice]
      omega
    · exact hrunner
  · have hbudget := h.budget
    rw [hcontenders]
    simp only [show (s.setTask c (s.tasks c).dropSlice).vsys = s.vsys from rfl]
    omega
  · intro i
    simp only [Scheduler.reach, hvr, hon]

end

/-! ## Runs of ticks and yields -/

def IsTickOrYield (_ : Scheduler) : SchedEvent → Prop
  | .tick .. => True
  | .yield .. => True
  | _ => False

/-- The event does not select `task`. -/
def PassesBy (task : Slot) (s : Scheduler) (e : SchedEvent) : Prop := selected s e ≠ some task

/-- Any state with its times below 2^63 has room. -/
theorem Bypassed.start {s : Scheduler} (hslices : SlicesFit s) (hpolicy : s.policy = .eevdf)
    (hv : ∀ i, (s.tasks i).vruntime < 2 ^ 63) (hd : ∀ i, (s.tasks i).vdeadline < 2 ^ 63) (hvsys : s.vsys < 2 ^ 63)
    {task : Slot} (ht : s.Ready task) : Bypassed task (s.tasks task).key s := by
  refine ⟨⟨hpolicy, fun i => ⟨(hslices i).settings, ?_, ?_⟩, ?_⟩, hslices, ht, rfl, ?_, ?_, ?_⟩
  · have := hv i
    unfold bypassLimit
    omega
  · have := hd i
    unfold bypassLimit
    omega
  · unfold bypassLimit
    omega
  · have hvruntime := hv task
    have hslice := (hslices task).settings.vslice_lt
    have hrecorded := hd task
    unfold Task.key Task.deadline
    split <;> omega
  · intro c _
    have hvruntime := hv c
    have hslice := (hslices c).timeSlice
    unfold bypassLimit
    omega
  · have hleft : s.sliceLeft < 2 ^ 32 := by
      unfold Scheduler.sliceLeft
      split
      · decide
      · rename_i c _
        have := (hslices c).timeSlice
        split
        · exact this
        · omega
    have hcard := contenders_card s (s.tasks task).key
    unfold bypassLimit
    omega

/-- One event: the invariant stays and every selection is paid for. -/
theorem Bypassed.step {task : Slot} {d : Nat} {s : Scheduler} (h : Bypassed task d s) {e : SchedEvent} (he : IsTickOrYield s e)
    (hpass : PassesBy task s e) : Bypassed task d (schedStep s e) ∧ ∀ i,
      ((selected s e).filter fun j => j = i).toList.length + allowance d ((schedStep s e).reach i) ≤ allowance d (s.reach i) := by
  have hscheduling : IsScheduling s e := by
    cases e with
    | tick now frame => trivial
    | yield now frame => trivial
    | _ => exact he.elim
  rcases schedStep_call hscheduling with ⟨k, hk, hstep, hpoint⟩ | ⟨-, -, hstep, hpoint⟩
  · obtain ⟨hcalled, hreach⟩ : Bypassed task d k.sched ∧ ∀ i, k.sched.reach i = s.reach i := by
      cases e with
      | tick now frame =>
        cases hk
        exact ⟨h, fun _ => rfl⟩
      | yield now frame =>
        obtain ⟨c, -, rfl⟩ := Option.map_eq_some_iff.1 hk
        exact h.dropSlice c
      | _ => exact he.elim
    unfold PassesBy at hpass
    rw [selected, hpoint] at hpass ⊢
    rw [hstep]
    unfold ScheduleCall.result
    simp only [← hreach]
    rcases doSchedule_decision k.sched k.now k.frame k.isPreemption with ⟨hd, heq, -⟩ |
      ⟨c, frame, hd, -, -, hc, hrun, -, hslice, heq⟩ | ⟨frame, hd, -, -, heq⟩
    · rw [hd, heq]
      exact ⟨hcalled, fun i => by simp⟩
    · obtain ⟨hkeep, hgrow⟩ := hcalled.charge k.now hc hrun hslice
      rw [hd, heq]
      refine ⟨hkeep, fun i => ?_⟩
      simpa using allowance_anti (hgrow i)
    · rw [hd] at hpass
      obtain ⟨j, hpick, hkeep, hpays⟩ := hcalled.decide k.now frame k.isPreemption hpass
      rw [hd, heq]
      refine ⟨hkeep, fun i => ?_⟩
      have hi := hpays i
      rw [Option.bind_some, hpick, Option.filter_some]
      split
      · rename_i hji
        rw [if_pos (of_decide_eq_true hji)] at hi
        exact hi
      · rename_i hji
        rw [if_neg (by simpa using hji)] at hi
        exact hi
  · rw [selected, hpoint, hstep]
    exact ⟨h, fun i => by simp⟩

/-- **Bounded bypass under EEVDF**: from any reachable state with the EEVDF policy and virtual times below 2^63, while
a READY task of key `d` in a visible slot is not selected, ticks and yields select any other task of vruntime `v` at most
`(d - v) / 6 + 1` times, and not at all if `v > d`. -/
theorem eevdf_bounded_bypass (s₀ : Scheduler) {h : SchedHistory} {s : Scheduler}
    (r : Run InterfaceCall schedStep (schedulerInit s₀) h s) (hpolicy : s.policy = .eevdf)
    (hv : ∀ i, (s.tasks i).vruntime < 2 ^ 63) (hd : ∀ i, (s.tasks i).vdeadline < 2 ^ 63) (hvsys : s.vsys < 2 ^ 63)
    {task : Slot} (ht : s.Ready task) {es : List SchedEvent} (ha : Admits IsTickOrYield schedStep s es)
    (hpass : Admits (PassesBy task) schedStep s es) (i : Slot) :
    selectionCount (fun j => j = i) s es ≤
      if (s.tasks i).vruntime > (s.tasks task).key then 0 else ((s.tasks task).key - (s.tasks i).vruntime) / 6 + 1 := by
  have hslices : SlicesFit s := r.invariant (slicesFit_init s₀) fun _ _ he hs => hs.step he
  have hbypassed : Bypassed task (s.tasks task).key s := Bypassed.start hslices hpolicy hv hd hvsys ht
  have hcount : selectionCount (fun j => j = i) s es ≤ allowance (s.tasks task).key (s.reach i) :=
    selectionCount_le_potential (Bypassed task (s.tasks task).key) _ (fun s => allowance _ (s.reach i))
      (fun s e he hs => (hs.step he.1 he.2).1) (fun s e he hs => (hs.step he.1 he.2).2 i) hbypassed (ha.and hpass)
  exact Nat.le_trans hcount (allowance_anti (Nat.le_add_right _ _))

/-- Three tasks, started, none run yet. -/
def threeStarted : SchedHistory × Scheduler :=
  traceFrom schedStep [] (schedulerInit schedulerBoot)
    [.setPolicy .eevdf, .create 10 100 0x1000 0x2000, .create 20 200 0x3000 0x4000, .create 30 300 0x5000 0x6000,
      .setSlice firstSlot 1, .start]

/-- Both ticks pass the third task by; the first selects the first task, as often as it may be. -/
theorem eevdf_bounded_bypass_third :
    let es : List SchedEvent := [.tick 0 (some (initialContext 0 0).restore), .tick 1 (some (initialContext 0 0).restore)]
    selectionCount (fun j => j = 0) threeStarted.2 es = 1 ∧ selectionCount (fun j => j = 0) threeStarted.2 es ≤ 1 := by
  intro es
  have r : Run InterfaceCall schedStep (schedulerInit schedulerBoot) threeStarted.1 threeStarted.2 :=
    Run.start.trace ⟨trivial, trivial, trivial, trivial, trivial, trivial, trivial⟩
  have ha : Admits IsTickOrYield schedStep threeStarted.2 es := ⟨trivial, trivial, trivial⟩
  have hpass : Admits (PassesBy 2) schedStep threeStarted.2 es := by
    refine ⟨?_, ?_, trivial⟩
    · unfold PassesBy
      decide +kernel
    · unfold PassesBy
      decide +kernel
  have hbound := eevdf_bounded_bypass schedulerBoot r (by decide +kernel) (by decide +kernel) (by decide +kernel)
    (by decide +kernel) (show threeStarted.2.Ready 2 from (by decide +kernel : (threeStarted.2.tasks 2).Selectable)) ha hpass 0
  have hallowed : (if (threeStarted.2.tasks 0).vruntime > (threeStarted.2.tasks 2).key then 0
      else ((threeStarted.2.tasks 2).key - (threeStarted.2.tasks 0).vruntime) / 6 + 1) = 1 := by decide +kernel
  rw [hallowed] at hbound
  exact ⟨by decide +kernel, hbound⟩

end Lettuce
