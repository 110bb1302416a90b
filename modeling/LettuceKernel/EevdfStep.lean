import LettuceKernel.EevdfChoice
/-!
# One `do_schedule` under EEVDF

While all virtual times stay below `clockLimit` the 64-bit arithmetic of the policy is exact:
`Task.charged` is what a charged tick makes of the running task, `Task.lifted` what waking and
requeueing make of theirs, and `Selects` says all a decision does. `ClockBound v` is the
invariant behind it, one bound `v` for every vruntime and for `V_sys`; each phase keeps it.
-/

namespace Lettuce

open FirstMins

/-- Above every virtual time here, and a slice and a tick away from `UINT64_MAX`. -/
def clockLimit : Nat := 2 ^ 63 + 2 ^ 53

/-- What a tick adds to the vruntime of the running task. -/
def Task.rate (t : Task) : Nat := eevdfScale / t.weight

/-- What a tick adds to `V_sys`. -/
def Scheduler.rate (s : Scheduler) : Nat := eevdfScale / activeWeightSum s.tasks

def Task.charged (t : Task) : Task := { t.chargeSlice 1 with vruntime := t.vruntime + t.rate }

def Task.lifted (vsys : Nat) (t : Task) : Task :=
  { t with vruntime := max t.vruntime vsys, vdeadline := max t.vruntime vsys + t.vslice }

structure Task.Bounded (v : Nat) (t : Task) : Prop where
  settings : t.Settings
  vruntime : t.vruntime ≤ v
  vdeadline : t.vdeadline < v + 2 ^ 48

structure ClockBound (v : Nat) (s : Scheduler) : Prop where
  policy : s.policy = .eevdf
  tasks : ∀ i, (s.tasks i).Bounded v
  vsys : s.vsys ≤ v

/-! ## Tasks -/

section
variable {v vsys : Nat} {t : Task}

theorem Task.rate_le (t : Task) : t.rate ≤ 65536 := Nat.div_le_self _ _

/-- The heaviest task is charged six units a tick. -/
theorem Task.Settings.rate_ge (h : t.Settings) : 6 ≤ t.rate := by
  have hle := h.weight_le
  refine (Nat.le_div_iff_mul_le h.weight_pos).2 ?_
  simp only [eevdfScale]
  omega

theorem Task.Bounded.deadline_lt (h : t.Bounded v) : t.deadline < v + 2 ^ 48 := by
  have hs := h.settings.vslice_lt
  have hv := h.vruntime
  simp only [Task.deadline]
  omega

theorem Task.Bounded.key_lt (h : t.Bounded v) : t.key < v + 2 ^ 48 := by
  unfold Task.key
  split
  · exact h.deadline_lt
  · exact h.vdeadline

theorem Task.Bounded.inRange (h : t.Bounded v) (hv : v ≤ clockLimit) : t.InRange := by
  have hlimit : clockLimit + 2 ^ 48 < uint64Max := by decide
  exact ⟨h.settings, by have := h.deadline_lt; omega, by have := h.vdeadline; omega⟩

theorem Task.Bounded.mono {v' : Nat} (h : t.Bounded v) (hv : v ≤ v') : t.Bounded v' :=
  ⟨h.settings, by have := h.vruntime; omega, by have := h.vdeadline; omega⟩

/-- Only weight, slice and the two times matter. -/
theorem Task.Bounded.congr {t' : Task} (h : t.Bounded v) (hw : t'.weight = t.weight)
    (hs : t'.requestedSliceTicks = t.requestedSliceTicks) (hv : t'.vruntime = t.vruntime) (hd : t'.vdeadline = t.vdeadline) :
    t'.Bounded v := by
  obtain ⟨⟨h1, h2, h3, h4⟩, h5, h6⟩ := h
  exact ⟨⟨by rwa [hw], by rwa [hw], by rwa [hs], by rwa [hs]⟩, by rwa [hv], by rwa [hd]⟩

theorem Task.Bounded.lifted (h : t.Bounded v) (hs : vsys ≤ v) : (t.lifted vsys).Bounded v := by
  have hslice := h.settings.vslice_lt
  have hvr := h.vruntime
  obtain ⟨h1, h2, h3, h4⟩ := h.settings
  refine ⟨⟨h1, h2, h3, h4⟩, ?_, ?_⟩
  · simp only [Task.lifted]
    omega
  · simp only [Task.lifted]
    omega

/-- Aligning computes the exact sum if it fits. -/
theorem Task.Settings.align (h : t.Settings) (hfit : max t.vruntime vsys + t.vslice < 2 ^ 64) : t.align vsys = t.lifted vsys := by
  have hset : ({ t with vruntime := max t.vruntime vsys } : Task).Settings := by
    obtain ⟨h1, h2, h3, h4⟩ := h
    exact ⟨h1, h2, h3, h4⟩
  have hmax : (if t.vruntime < vsys then { t with vruntime := vsys } else t) = { t with vruntime := max t.vruntime vsys } := by
    split
    · rw [Nat.max_eq_right (Nat.le_of_lt ‹_›)]
    · rw [Nat.max_eq_left (Nat.le_of_not_lt ‹_›)]
  unfold Task.align
  simp only [hmax, hset.calcDeadline hfit]
  rfl

theorem Task.Bounded.lifted_fits (h : t.Bounded v) (hs : vsys ≤ v) (hv : v ≤ clockLimit) :
    max t.vruntime vsys + t.vslice < 2 ^ 64 := by
  have hlimit : clockLimit + 2 ^ 48 < 2 ^ 64 := by decide
  have hslice := h.settings.vslice_lt
  have hvr := h.vruntime
  omega

theorem Task.Bounded.align (h : t.Bounded v) (hs : vsys ≤ v) (hv : v ≤ clockLimit) : t.align vsys = t.lifted vsys :=
  h.settings.align (h.lifted_fits hs hv)

theorem Task.Bounded.renewed (h : t.Bounded v) : t.renewed.Bounded v := by
  obtain ⟨h1, h2, h3, h4⟩ := h.settings
  exact ⟨⟨h1, h2, h3, h4⟩, h.vruntime, h.deadline_lt⟩

theorem Task.Bounded.keyed (h : t.Bounded v) : ({ t with vdeadline := t.key } : Task).Bounded v := by
  obtain ⟨h1, h2, h3, h4⟩ := h.settings
  exact ⟨⟨h1, h2, h3, h4⟩, h.vruntime, h.key_lt⟩

/-- Charging a task whose new vruntime is within the bound. -/
theorem Task.Bounded.charged {v' : Nat} (h : t.Bounded v) (hv : v ≤ v') (hc : t.vruntime + t.rate ≤ v') :
    t.charged.Bounded v' := by
  obtain ⟨h1, h2, h3, h4⟩ := h.settings
  exact ⟨⟨h1, h2, h3, h4⟩, hc, (h.mono hv).vdeadline⟩

end

/-! ## The phases of `do_schedule` -/

theorem activeWeightSum_pos (tasks : TaskTable) : 0 < activeWeightSum tasks := by
  unfold activeWeightSum
  dsimp only
  split
  · assumption
  · decide

theorem Scheduler.rate_le (s : Scheduler) : s.rate ≤ 65536 := Nat.div_le_self _ _

section
variable {v : Nat} {s : Scheduler}

theorem ClockBound.mono {v' : Nat} (h : ClockBound v s) (hv : v ≤ v') : ClockBound v' s :=
  ⟨h.policy, fun i => (h.tasks i).mono hv, Nat.le_trans h.vsys hv⟩

theorem ClockBound.setTask (h : ClockBound v s) {i : Slot} {t : Task} (ht : t.Bounded v) : ClockBound v (s.setTask i t) :=
  ⟨h.policy, every_update h.tasks ht, h.vsys⟩

/-- The wake scan, task by task. -/
theorem ClockBound.wake_tasks (h : ClockBound v s) (hv : v ≤ clockLimit) (now : Nat) (i : Slot) :
    (wakeSleepers s now).tasks i =
      if (s.tasks i).Scanned ∧ (s.tasks i).state = .sleeping ∧ (s.tasks i).sleepDeadlineTicks ≤ now then
        ({ s.tasks i with state := .ready } : Task).lifted s.vsys
      else s.tasks i := by
  rw [wakeSleepers_tasks]
  by_cases hs : (s.tasks i).Scanned
  · by_cases hd : (s.tasks i).state = .sleeping ∧ (s.tasks i).sleepDeadlineTicks ≤ now
    · rw [if_pos hs, if_pos ⟨hs, hd⟩, Task.wake_of_due hd.1 hd.2, h.policy]
      exact Task.Bounded.align ((h.tasks i).congr rfl rfl rfl rfl) h.vsys hv
    · rw [if_pos hs, if_neg (fun hall => hd hall.2), Task.wake_of_not_due hd]
  · rw [if_neg hs, if_neg (fun hall => hs hall.1)]

theorem ClockBound.wakeSleepers (h : ClockBound v s) (hv : v ≤ clockLimit) (now : Nat) :
    ClockBound v (wakeSleepers s now) := by
  refine ⟨by simpa using h.policy, fun i => ?_, by simpa using h.vsys⟩
  rw [h.wake_tasks hv]
  split
  · exact Task.Bounded.lifted ((h.tasks i).congr rfl rfl rfl rfl) h.vsys
  · exact h.tasks i

/-- The accounting hook: both clocks move by their rates, modulo 2^64. -/
theorem onTick_wrapped (hpolicy : s.policy = .eevdf) {c : Slot} (hset : (s.tasks c).Settings) (hrun : (s.tasks c).state = .running) :
    onTick s c 1 = { s.setTask c { (s.tasks c).charged with vruntime := ((s.tasks c).vruntime + (s.tasks c).rate) % 2 ^ 64 } with
      vsys := (s.vsys + s.rate) % 2 ^ 64 } := by
  have hscale : 1 * eevdfScale % 2 ^ 64 = eevdfScale := by decide
  unfold onTick eevdfOnTick
  simp only [hpolicy, hrun, ↓reduceIte, hscale, hset.effectiveWeight]
  rfl

/-- It is exact where neither sum wraps. -/
theorem onTick_exact (hpolicy : s.policy = .eevdf) {c : Slot} (hset : (s.tasks c).Settings) (hrun : (s.tasks c).state = .running)
    (hvr : (s.tasks c).vruntime + (s.tasks c).rate < 2 ^ 64) (hvs : s.vsys + s.rate < 2 ^ 64) :
    onTick s c 1 = { s.setTask c (s.tasks c).charged with vsys := s.vsys + s.rate } := by
  rw [onTick_wrapped hpolicy hset hrun, Nat.mod_eq_of_lt hvr, Nat.mod_eq_of_lt hvs]
  rfl

/-- Requeueing is exact where the deadline does not wrap. -/
theorem requeue_exact (hpolicy : s.policy = .eevdf) {c : Slot} (hset : (s.tasks c).Settings)
    (hfit : max (s.tasks c).vruntime s.vsys + (s.tasks c).vslice < 2 ^ 64) (frame : TrapFrame) :
    requeue s c frame =
      s.setTask c (({ s.tasks c with context := frame.save, state := .ready } : Task).lifted s.vsys) := by
  obtain ⟨h1, h2, h3, h4⟩ := hset
  unfold requeue
  rw [hpolicy]
  exact congrArg _ (Task.Settings.align ⟨h1, h2, h3, h4⟩ hfit)

/-- A running task is charged, queued and lifted to the new `V_sys`. -/
theorem charge_requeue_exact (hpolicy : s.policy = .eevdf) {c : Slot} (hset : (s.tasks c).Settings)
    (hrun : (s.tasks c).state = .running) (hvs : s.vsys + s.rate < 2 ^ 64)
    (hfit : max ((s.tasks c).vruntime + (s.tasks c).rate) (s.vsys + s.rate) + (s.tasks c).vslice < 2 ^ 64) (frame : TrapFrame) :
    (requeue (onTick s c 1) c frame).vsys = s.vsys + s.rate ∧
    (requeue (onTick s c 1) c frame).tasks c =
      ({ (s.tasks c).charged with context := frame.save, state := .ready } : Task).lifted (s.vsys + s.rate) ∧
    ∀ i, i ≠ c → (requeue (onTick s c 1) c frame).tasks i = s.tasks i := by
  obtain ⟨h1, h2, h3, h4⟩ := hset
  have htick := onTick_exact hpolicy ⟨h1, h2, h3, h4⟩ hrun (by omega) hvs
  have hself : (onTick s c 1).tasks c = (s.tasks c).charged := by
    rw [htick]
    exact Function.update_self ..
  have hvsys : (onTick s c 1).vsys = s.vsys + s.rate := by rw [htick]
  have hpolicy' : (onTick s c 1).policy = .eevdf := (onTick_frame s c 1).policy.trans hpolicy
  have hrequeue := requeue_exact (c := c) hpolicy' (by rw [hself]; exact ⟨h1, h2, h3, h4⟩) (by rw [hself, hvsys]; exact hfit) frame
  rw [hrequeue, hself, hvsys]
  refine ⟨hvsys, Function.update_self .., fun i hi => ?_⟩
  rw [htick]
  simp only [Scheduler.setTask, Function.update_of_ne hi]

/-- Step 2 with a running task. -/
theorem prepared_exact (hpolicy : s.policy = .eevdf) {c : Slot} (hset : (s.tasks c).Settings) {now : Nat}
    (hc : s.current = some c) (hrun : (s.tasks c).state = .running) (hvs : s.vsys + (wakeSleepers s now).rate < 2 ^ 64)
    (hfit : max ((s.tasks c).vruntime + (s.tasks c).rate) (s.vsys + (wakeSleepers s now).rate) + (s.tasks c).vslice < 2 ^ 64)
    (frame : TrapFrame) :
    (prepared s now frame).vsys = s.vsys + (wakeSleepers s now).rate ∧
    (prepared s now frame).tasks c = ({ (s.tasks c).charged with context := frame.save, state := .ready } : Task).lifted
      (s.vsys + (wakeSleepers s now).rate) ∧
    ∀ i, i ≠ c → (prepared s now frame).tasks i = (wakeSleepers s now).tasks i := by
  have htask := wakeSleepers_of_running hrun now
  have hvsys : (wakeSleepers s now).vsys = s.vsys := wakeSleepers_vsys ..
  have hpolicy' : (wakeSleepers s now).policy = .eevdf := by simpa using hpolicy
  have h := charge_requeue_exact (s := wakeSleepers s now) (c := c) hpolicy' (by rw [htask]; exact hset) (by rw [htask]; exact hrun)
    (by rw [hvsys]; exact hvs) (by rw [htask, hvsys]; exact hfit) frame
  rw [htask, hvsys] at h
  rw [prepared_of_running s now frame hc hrun]
  exact h

/-- One charge above the bound is still far from 2^64. -/
theorem charge_fits {n r : Nat} (hn : n ≤ v) (hv : v ≤ clockLimit) (hr : r ≤ 65536) : n + r < 2 ^ 64 := by
  have hlimit : clockLimit + 65536 < 2 ^ 64 := by decide
  omega

theorem ClockBound.onTick_eq (h : ClockBound v s) (hv : v ≤ clockLimit) {c : Slot} (hrun : (s.tasks c).state = .running) :
    onTick s c 1 = { s.setTask c (s.tasks c).charged with vsys := s.vsys + s.rate } :=
  onTick_exact h.policy (h.tasks c).settings hrun (charge_fits (h.tasks c).vruntime hv (Task.rate_le _))
    (charge_fits h.vsys hv s.rate_le)

theorem ClockBound.onTick {v' : Nat} (h : ClockBound v s) (hv : v ≤ clockLimit) (hle : v ≤ v') {c : Slot}
    (hrun : (s.tasks c).state = .running) (hc : (s.tasks c).vruntime + (s.tasks c).rate ≤ v') (hs : s.vsys + s.rate ≤ v') :
    ClockBound v' (onTick s c 1) := by
  rw [h.onTick_eq hv hrun]
  have hset := (h.mono hle).setTask (i := c) ((h.tasks c).charged hle hc)
  exact ⟨hset.policy, hset.tasks, hs⟩

theorem ClockBound.requeue_eq (h : ClockBound v s) (hv : v ≤ clockLimit) (c : Slot) (frame : TrapFrame) :
    requeue s c frame =
      s.setTask c (({ s.tasks c with context := frame.save, state := .ready } : Task).lifted s.vsys) :=
  requeue_exact h.policy (h.tasks c).settings ((h.tasks c).lifted_fits h.vsys hv) frame

theorem ClockBound.requeue (h : ClockBound v s) (hv : v ≤ clockLimit) (c : Slot) (frame : TrapFrame) :
    ClockBound v (requeue s c frame) := by
  rw [h.requeue_eq hv]
  exact h.setTask (Task.Bounded.lifted ((h.tasks c).congr rfl rfl rfl rfl) h.vsys)

/-- At a decision the current task is not RUNNING any more. -/
theorem prepared_current_ne_running (s : Scheduler) (now : Nat) (frame : TrapFrame) {c : Slot} (hc : s.current = some c) :
    ((prepared s now frame).tasks c).state ≠ .running := by
  rcases running_or_not s with ⟨c', hc', hrun⟩ | hno
  · obtain rfl : c = c' := Option.some.inj (hc.symm.trans hc')
    rw [prepared_of_running s now frame hc hrun, requeue_tasks, if_pos rfl, kept_state (onTaskReady_kept _ _ _)]
    simp
  · rw [prepared_of_not_running s now frame hno]
    intro hrun
    exact hno c hc ((wakeSleepers_running s now c).1 hrun)

theorem ClockBound.prepared_running (h : ClockBound v s) (hv : v + 65536 ≤ clockLimit) (now : Nat) (frame : TrapFrame)
    {c : Slot} (hc : s.current = some c) (hrun : (s.tasks c).state = .running) :
    (prepared s now frame).vsys = s.vsys + (Lettuce.wakeSleepers s now).rate ∧
    (prepared s now frame).tasks c = ({ (s.tasks c).charged with context := frame.save, state := .ready } : Task).lifted
      (s.vsys + (Lettuce.wakeSleepers s now).rate) ∧
    ∀ i, i ≠ c → (prepared s now frame).tasks i = (Lettuce.wakeSleepers s now).tasks i := by
  have hrate := (Lettuce.wakeSleepers s now).rate_le
  have hcharged := (h.tasks c).charged (Nat.le_add_right v 65536) (Nat.add_le_add (h.tasks c).vruntime (Task.rate_le _))
  exact prepared_exact h.policy (h.tasks c).settings hc hrun (charge_fits h.vsys (by omega) hrate)
    (hcharged.lifted_fits (Nat.add_le_add h.vsys hrate) hv) frame

/-- The same when the slice is not over: it is charged and goes on. -/
theorem ClockBound.onTick_running (h : ClockBound v s) (hv : v ≤ clockLimit) (now : Nat) {c : Slot} (hc : s.current = some c)
    (hrun : (s.tasks c).state = .running) :
    (Lettuce.onTick (Lettuce.wakeSleepers s now) c 1).current = some c ∧
    (Lettuce.onTick (Lettuce.wakeSleepers s now) c 1).vsys = s.vsys + (Lettuce.wakeSleepers s now).rate ∧
    (Lettuce.onTick (Lettuce.wakeSleepers s now) c 1).tasks c = (s.tasks c).charged ∧
    ∀ i, i ≠ c → (Lettuce.onTick (Lettuce.wakeSleepers s now) c 1).tasks i = (Lettuce.wakeSleepers s now).tasks i := by
  rw [(h.wakeSleepers hv now).onTick_eq hv ((wakeSleepers_running s now c).2 hrun)]
  simp only [Scheduler.setTask, wakeSleepers_current, wakeSleepers_vsys, wakeSleepers_of_running hrun, Function.update_self]
  exact ⟨hc, trivial, trivial, fun i hi => Function.update_of_ne hi ..⟩

/-- The charge of the running task, if any, fits below `v'`. -/
def ChargeWithin (s : Scheduler) (now v' : Nat) : Prop :=
  ∀ c, s.current = some c → (s.tasks c).state = .running →
    (s.tasks c).vruntime + (s.tasks c).rate ≤ v' ∧ s.vsys + (wakeSleepers s now).rate ≤ v'

theorem ClockBound.charge {v' : Nat} (h : ClockBound v s) (hv : v ≤ clockLimit) (hle : v ≤ v') {now : Nat}
    (hfit : ChargeWithin s now v') {c : Slot} (hc : s.current = some c) (hrun : (s.tasks c).state = .running) :
    ClockBound v' (Lettuce.onTick (Lettuce.wakeSleepers s now) c 1) := by
  obtain ⟨h1, h2⟩ := hfit c hc hrun
  refine (h.wakeSleepers hv now).onTick hv hle ((wakeSleepers_running s now c).2 hrun) ?_ ?_
  · rwa [wakeSleepers_of_running hrun]
  · rwa [wakeSleepers_vsys]

theorem ClockBound.prepared {v' : Nat} (h : ClockBound v s) (hle : v ≤ v') (hv' : v' ≤ clockLimit) {now : Nat}
    (hfit : ChargeWithin s now v') (frame : TrapFrame) : ClockBound v' (prepared s now frame) := by
  rcases running_or_not s with ⟨c, hc, hrun⟩ | hno
  · rw [prepared_of_running s now frame hc hrun]
    exact (h.charge (by omega) hle hfit hc hrun).requeue hv' c frame
  · rw [prepared_of_not_running s now frame hno]
    exact (h.wakeSleepers (by omega) now).mono hle

end

/-! ## The decision -/

/-- The current task, running. -/
def Scheduler.OnCpu (s : Scheduler) (i : Slot) : Prop := s.current = some i ∧ (s.tasks i).state = .running

instance (s : Scheduler) (i : Slot) : Decidable (s.OnCpu i) := inferInstanceAs (Decidable (_ ∧ _))

theorem Scheduler.OnCpu.iff_eq {s : Scheduler} {c : Slot} (h : s.OnCpu c) (i : Slot) : s.OnCpu i ↔ i = c := by
  constructor
  · intro hi
    exact Option.some.inj (hi.1.symm.trans h.1)
  · rintro rfl
    exact h

/-- A decision in state `p` that runs task `j`: who is chosen, where `V_sys` goes, what is written. -/
structure Selects (p : Scheduler) (j : Slot) (s' : Scheduler) : Prop where
  choice : (FirstMin p.Eligible (fun i => (p.tasks i).key) j ∧ s'.vsys = p.vsys) ∨
    ((∀ i, ¬ p.Eligible i) ∧ FirstMin p.Ready (fun i => (p.tasks i).vruntime) j ∧ s'.vsys = (p.tasks j).vruntime)
  current : s'.current = some j
  task : s'.tasks j = { (p.tasks j).renewed with
    state := .running
    timeSliceTicks := if p.current = some j then (p.tasks j).quantumTicks else (p.tasks j).requestedSliceTicks }
  others : ∀ i, i ≠ j → s'.tasks i = if p.Eligible i then { p.tasks i with vdeadline := (p.tasks i).key } else p.tasks i

section
variable {p s' : Scheduler} {j : Slot}

theorem Selects.ready (h : Selects p j s') : p.Ready j := by
  rcases h.choice with ⟨hmin, -⟩ | ⟨-, hmin, -⟩
  · exact hmin.candidate.1
  · exact hmin.candidate

/-- `V_sys` jumps exactly if no competing task is eligible. -/
theorem Selects.vsys_grows_iff (h : Selects p j s') : p.vsys < s'.vsys ↔ ∀ i, ¬ p.Eligible i := by
  rcases h.choice with ⟨hmin, hstay⟩ | ⟨hnone, hmin, hjump⟩
  · rw [hstay]
    exact iff_of_false (Nat.lt_irrefl _) fun hnone => hnone j hmin.candidate
  · refine iff_of_true ?_ hnone
    rw [hjump]
    exact Nat.lt_of_not_le fun hle => hnone j ⟨hmin.candidate, hle⟩

/-- `V_sys` stays or jumps up to the chosen vruntime. -/
theorem Selects.vsys_le (h : Selects p j s') : p.vsys ≤ s'.vsys := by
  rcases h.choice with ⟨-, hv⟩ | ⟨hnone, -⟩
  · rw [hv]
  · exact Nat.le_of_lt (h.vsys_grows_iff.2 hnone)

theorem Selects.vruntime (h : Selects p j s') (i : Slot) : (s'.tasks i).vruntime = (p.tasks i).vruntime := by
  by_cases hij : i = j
  · rw [hij, h.task]
    rfl
  · rw [h.others i hij]
    split <;> rfl

theorem Selects.onCpu (h : Selects p j s') (i : Slot) : s'.OnCpu i ↔ i = j :=
  Scheduler.OnCpu.iff_eq ⟨h.current, by rw [h.task]⟩ i

/-- With a READY task in the table a decision runs one. -/
theorem selectNext_selects (hp : p.policy = .eevdf) (hr : ∀ i, p.Ready i → (p.tasks i).InRange) {i : Slot} (hi : p.Ready i)
    (frame : TrapFrame) (pre : Bool) :
    ∃ j, (pickNext p p.current).2 = some j ∧ Selects p j (selectNext p frame pre).sched := by
  have hpick : pickNext p p.current = eevdfPickNext p p.current := by rw [pickNext, hp]
  -- whoever is picked from the keyed table, step 4 makes it RUNNING and current
  have hrun : ∀ j vsys, pickNext p p.current = ({ p.select j with vsys }, some j) →
      (selectNext p frame pre).sched.vsys = vsys ∧ (selectNext p frame pre).sched.current = some j ∧
      (selectNext p frame pre).sched.tasks j = { (p.tasks j).renewed with
        state := .running
        timeSliceTicks := if p.current = some j then (p.tasks j).quantumTicks else (p.tasks j).requestedSliceTicks } ∧
      ∀ i, i ≠ j → (selectNext p frame pre).sched.tasks i =
        if p.Eligible i then { p.tasks i with vdeadline := (p.tasks i).key } else p.tasks i := by
    intro j vsys heq
    unfold selectNext
    simp only [heq]
    by_cases hcur : p.current = some j
    · rw [if_pos hcur, if_pos hcur]
      refine ⟨rfl, hcur, ?_, fun i hi => ?_⟩
      · simp [Scheduler.setTask, Task.continueRunning, Scheduler.select, Task.renewed]
      · simp only [Scheduler.setTask, Function.update_of_ne hi]
        exact select_tasks_of_ne hi
    · rw [if_neg hcur, if_neg hcur]
      refine ⟨rfl, rfl, ?_, fun i hi => ?_⟩
      · simp [switchTo, Scheduler.select, Task.renewed]
      · simp only [switchTo, Function.update_of_ne hi]
        exact select_tasks_of_ne hi
  rcases eevdfPickNext_spec hr p.current with ⟨j, hmin, heq⟩ | ⟨hnone, j, hmin, heq⟩ | ⟨hempty, -⟩ | ⟨hempty, -⟩
  · rw [← hpick] at heq
    obtain ⟨hv, hc, ht, ho⟩ := hrun j p.vsys heq
    exact ⟨j, by rw [heq], Or.inl ⟨hmin, hv⟩, hc, ht, ho⟩
  · rw [← hpick] at heq
    obtain ⟨hv, hc, ht, ho⟩ := hrun j _ heq
    exact ⟨j, by rw [heq], Or.inr ⟨hnone, hmin, hv⟩, hc, ht, ho⟩
  · exact absurd hi (hempty i)
  · exact absurd hi (hempty i)

/-- Without one nothing is picked; at most the current task goes on. -/
theorem selectNext_idle (hp : p.policy = .eevdf) (hempty : ∀ i, ¬ p.Ready i)
    (hcur : ∀ c, p.current = some c → (p.tasks c).state ≠ .running) (frame : TrapFrame) (pre : Bool) :
    (selectNext p frame pre).sched = p ∨
      ∃ c, (p.tasks c).state = .ready ∧ (selectNext p frame pre).sched = p.setTask c (p.tasks c).continueRunning := by
  have hpick : pickNext p p.current = (p, none) := by
    rw [pickNext, hp]
    rcases eevdfPickNext_spec (fun i hi => absurd hi (hempty i)) p.current with ⟨j, hmin, -⟩ | ⟨-, j, hmin, -⟩ |
      ⟨-, c, hc, hrun, -⟩ | ⟨-, -, heq⟩
    · exact absurd hmin.candidate.1 (hempty j)
    · exact absurd hmin.candidate (hempty j)
    · exact absurd hrun (hcur c hc)
    · exact heq
  rcases selectNext_outcome p frame pre with ⟨-, -, hout⟩ | ⟨c, -, -, hready, hout⟩ | ⟨j, hj, -⟩ | ⟨j, hj, -⟩
  · rw [hout, hpick]
    exact Or.inl rfl
  · rw [hpick] at hready
    rw [hout, hpick]
    exact Or.inr ⟨c, hready, rfl⟩
  · rw [hpick] at hj
    cases hj
  · rw [hpick] at hj
    cases hj

end

section
variable {v : Nat} {s : Scheduler}

/-- A decision keeps the bound, and `V_sys` does not fall. -/
theorem ClockBound.selectNext (h : ClockBound v s) (hv : v ≤ clockLimit)
    (hcur : ∀ c, s.current = some c → (s.tasks c).state ≠ .running) (frame : TrapFrame) (pre : Bool) :
    ClockBound v (selectNext s frame pre).sched ∧ s.vsys ≤ (selectNext s frame pre).sched.vsys := by
  have hpolicy := (selectNext_policy s frame pre).trans h.policy
  by_cases hready : ∃ i, s.Ready i
  · obtain ⟨i, hi⟩ := hready
    obtain ⟨j, -, hsel⟩ := selectNext_selects h.policy (fun i _ => (h.tasks i).inRange hv) hi frame pre
    refine ⟨⟨hpolicy, fun i => ?_, ?_⟩, hsel.vsys_le⟩
    · by_cases hij : i = j
      · rw [hij, hsel.task]
        exact (h.tasks j).renewed.congr rfl rfl rfl rfl
      · rw [hsel.others i hij]
        split
        · exact (h.tasks i).keyed
        · exact h.tasks i
    · rcases hsel.choice with ⟨-, heq⟩ | ⟨-, -, heq⟩
      · rw [heq]; exact h.vsys
      · rw [heq]; exact (h.tasks j).vruntime
  · have hempty : ∀ i, ¬ s.Ready i := fun i hi => hready ⟨i, hi⟩
    rcases selectNext_idle h.policy hempty hcur frame pre with heq | ⟨c, -, heq⟩
    · rw [heq]
      exact ⟨h, Nat.le_refl _⟩
    · rw [heq]
      exact ⟨h.setTask ((h.tasks c).congr rfl rfl rfl rfl), Nat.le_refl _⟩

theorem prepared_vsys_le (h : ClockBound v s) (hv : v + 65536 ≤ clockLimit) (now : Nat) (frame : TrapFrame) :
    s.vsys ≤ (prepared s now frame).vsys := by
  rcases running_or_not s with ⟨c, hc, hrun⟩ | hno
  · rw [(h.prepared_running hv now frame hc hrun).1]
    exact Nat.le_add_right _ _
  · rw [prepared_of_not_running s now frame hno, wakeSleepers_vsys]

end

/-! ## The other events -/

/-- The calls after `lettuce_scheduler_init` and the choice of the policy. -/
def EevdfCall (_ : Scheduler) : SchedEvent → Prop
  | .init => False
  | .setPolicy _ => False
  | .adopt _ => False
  | _ => True

/-- What an event that does not schedule makes of a task. -/
inductive Task.Edit : Task → Task → Prop
  | same (t : Task) : Edit t t
  | created (t : Task) {id : TaskId} {generation : BitVec 16} {serviceId : ServiceId} {domainId : DomainId}
      {context : TaskContext} : Edit t
        { id, generation, serviceId, domainId, state := .ready, weight := eevdfBaseWeight
          requestedSliceTicks := eevdfDefaultSlice, timeSliceTicks := eevdfDefaultSlice, quantumTicks := eevdfDefaultSlice
          vruntime := 0, vdeadline := 0, sleepDeadlineTicks := 0, totalTicksRun := 0, context }
  | terminated (t : Task) : Edit t t.terminate
  | weight (t : Task) {w : Nat} (hpos : 1 ≤ w) (hle : w ≤ 10240) : Edit t { t with weight := w }
  | slice (t : Task) {n : Nat} (hpos : 1 ≤ n) (hlt : n < 2 ^ 32) : Edit t { t with requestedSliceTicks := n, quantumTicks := n }

theorem edit_update {tasks : TaskTable} {i : Slot} {t : Task} (ht : (tasks i).Edit t) (j : Slot) :
    (tasks j).Edit (Function.update tasks i t j) :=
  update_related Task.Edit.same ht j

/-- An event schedules, or edits tasks and leaves the policy and `V_sys` alone. -/
theorem schedStep_edit {s : Scheduler} {e : SchedEvent} (he : EevdfCall s e) :
    (∃ k, scheduleCall s e = some k ∧ schedStep s e = k.result) ∨
    (scheduleCall s e = none ∧ (schedStep s e).policy = s.policy ∧ (schedStep s e).vsys = s.vsys ∧
      ∀ i, (s.tasks i).Edit ((schedStep s e).tasks i)) := by
  by_cases hscheduling : IsScheduling s e
  · rcases schedStep_call hscheduling with ⟨k, hk, hstep, -⟩ | ⟨hk, -, hstep, -⟩
    · exact Or.inl ⟨k, hk, hstep⟩
    · rw [hstep]
      exact Or.inr ⟨hk, rfl, rfl, fun i => .same _⟩
  cases e with
  | create serviceId domainId entryPc stackTop =>
    refine Or.inr ⟨rfl, rfl, rfl, ?_⟩
    simp only [schedStep, schedCall, taskCreate]
    split
    · exact fun i => .same _
    · exact edit_update (.created _)
  | terminate id =>
    right
    simp only [schedStep, schedCall]
    rcases terminate_cases s id with heq | ⟨i, -, heq⟩
    · rw [heq]
      exact ⟨rfl, rfl, rfl, fun i => .same _⟩
    · rw [heq]
      exact ⟨rfl, rfl, rfl, edit_update (.terminated _)⟩
  | setWeight task weight =>
    refine Or.inr ⟨rfl, rfl, rfl, edit_update (.weight _ ?_ ?_)⟩
    · split_ifs <;> omega
    · split_ifs <;> omega
  | setSlice task sliceTicks =>
    have hlt := sliceTicks.isLt
    refine Or.inr ⟨rfl, rfl, rfl, edit_update (.slice _ ?_ ?_)⟩
    · split_ifs <;> omega
    · split_ifs <;> omega
  | setPreemptLimit maxPreempts => exact Or.inr ⟨rfl, rfl, rfl, fun i => .same _⟩
  | start => exact Or.inr ⟨rfl, rfl, rfl, fun i => .same _⟩
  | stop => exact Or.inr ⟨rfl, rfl, rfl, fun i => .same _⟩
  | tick now frame => exact absurd trivial hscheduling
  | yield now frame => exact absurd trivial hscheduling
  | sleep ticks now frame => exact absurd trivial hscheduling
  | init => exact he.elim
  | setPolicy policy => exact he.elim
  | adopt task => exact he.elim

section
variable {t t' : Task}

/-- A new task's settings. -/
theorem settings_default (hw : t.weight = eevdfBaseWeight) (hs : t.requestedSliceTicks = eevdfDefaultSlice) : t.Settings := by
  refine ⟨?_, ?_, ?_, ?_⟩
  · rw [hw]; decide
  · rw [hw]; decide
  · rw [hs]; decide
  · rw [hs]; decide

theorem Task.Edit.settings (h : t.Edit t') (hs : t.Settings) : t'.Settings := by
  obtain ⟨h1, h2, h3, h4⟩ := hs
  cases h with
  | same => exact ⟨h1, h2, h3, h4⟩
  | created => exact settings_default rfl rfl
  | terminated => exact ⟨h1, h2, h3, h4⟩
  | weight hpos hle => exact ⟨hpos, hle, h3, h4⟩
  | slice hpos hlt => exact ⟨h1, h2, hpos, hlt⟩

theorem Task.Edit.bounded {v : Nat} (h : t.Edit t') (hb : t.Bounded v) : t'.Bounded v := by
  refine ⟨h.settings hb.settings, ?_, ?_⟩
  · cases h with
    | created => exact Nat.zero_le _
    | _ => exact hb.vruntime
  · cases h with
    | created => exact Nat.lt_of_lt_of_le (by decide : 0 < 2 ^ 48) (Nat.le_add_left _ _)
    | _ => exact hb.vdeadline

theorem Task.Edit.ticks (h : t.Edit t') : t'.totalTicksRun ≤ t.totalTicksRun := by
  cases h with
  | created => exact Nat.zero_le _
  | _ => exact Nat.le_refl _

end

end Lettuce
