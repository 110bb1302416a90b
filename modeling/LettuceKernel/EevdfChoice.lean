import LettuceKernel.SchedulerDecision
import LettuceKernel.Lib.FirstMin
/-!
# What `eevdf_pick_next` picks (`kernel/scheduler/eevdf.c:108-183`)

The scan keeps two running minima at once, the least deadline of the eligible READY tasks and the
least vruntime of all READY tasks, and writes missing deadlines while it compares them. The
choice is the first minimum of the former, if it is empty of the latter; it is read off the table
as it was before the scan.

`Task.vslice`, `Task.deadline` and `Task.key` are the numbers the code means; `InRange` says when
64-bit arithmetic computes them and the sentinels stay above them.
-/

namespace Lettuce

open FirstMins TableFold

/-- `slice * SCALE / weight` -/
def Task.vslice (t : Task) : Nat := t.requestedSliceTicks * eevdfScale / t.weight

def Task.deadline (t : Task) : Nat := t.vruntime + t.vslice

/-- The deadline a READY task competes with: the recorded one unless it lies before its vruntime. -/
def Task.key (t : Task) : Nat := if t.vdeadline < t.vruntime then t.deadline else t.vdeadline

/-- The values `lettuce_task_set_weight` and `lettuce_task_set_slice` admit. -/
structure Task.Settings (t : Task) : Prop where
  weight_pos : 1 ≤ t.weight
  weight_le : t.weight ≤ 10240
  slice_pos : 1 ≤ t.requestedSliceTicks
  slice_lt : t.requestedSliceTicks < 2 ^ 32

structure Task.InRange (t : Task) : Prop where
  settings : t.Settings
  deadline : t.deadline < uint64Max
  recorded : t.vdeadline < uint64Max

def Scheduler.Ready (s : Scheduler) (i : Slot) : Prop := (s.tasks i).Selectable

def Scheduler.Eligible (s : Scheduler) (i : Slot) : Prop := (s.tasks i).Selectable ∧ (s.tasks i).vruntime ≤ s.vsys

instance (s : Scheduler) (i : Slot) : Decidable (s.Ready i) := inferInstanceAs (Decidable (Task.Selectable _))

instance (s : Scheduler) (i : Slot) : Decidable (s.Eligible i) := inferInstanceAs (Decidable (_ ∧ _))

/-- The table in which the eligible tasks of the first `k` slots record their key. -/
def Scheduler.keyedBelow (s : Scheduler) (k : Nat) : TaskTable := fun i =>
  if i.val < k ∧ s.Eligible i then { s.tasks i with vdeadline := (s.tasks i).key } else s.tasks i

/-- The selected task. -/
def Task.renewed (t : Task) : Task := { t with timeSliceTicks := t.requestedSliceTicks, vdeadline := t.deadline }

section
variable {t : Task}

theorem Task.Settings.vslice_lt (h : t.Settings) : t.vslice < 2 ^ 48 := by
  have hs := h.slice_lt
  have hle : t.vslice ≤ t.requestedSliceTicks * eevdfScale := Nat.div_le_self _ _
  simp only [eevdfScale] at hle
  omega

theorem Task.Settings.effectiveWeight (h : t.Settings) : t.effectiveWeight = t.weight := if_pos h.weight_pos

theorem Task.Settings.calcVslice (h : t.Settings) : calcVslice t = t.vslice := by
  have hs := h.slice_lt
  have hfit : t.requestedSliceTicks * eevdfScale < 2 ^ 64 := by
    simp only [eevdfScale]
    omega
  unfold Lettuce.calcVslice
  simp only [h.effectiveWeight, if_pos (show t.requestedSliceTicks > 0 from h.slice_pos), Nat.mod_eq_of_lt hfit]
  rfl

/-- A deadline that fits is computed exactly. -/
theorem Task.Settings.calcDeadline (h : t.Settings) (hfit : t.deadline < 2 ^ 64) : calcDeadline t = t.deadline := by
  unfold Lettuce.calcDeadline
  rw [h.calcVslice]
  exact Nat.mod_eq_of_lt hfit

theorem Task.InRange.calcDeadline (h : t.InRange) : calcDeadline t = t.deadline := by
  have hfit := h.deadline
  refine h.settings.calcDeadline ?_
  simp only [uint64Max] at hfit
  omega

theorem Task.InRange.renew (h : t.InRange) : t.renew = t.renewed := by
  simp only [Task.renew, Task.renewed, h.calcDeadline]

theorem Task.InRange.refreshDeadline (h : t.InRange) : t.refreshDeadline = { t with vdeadline := t.key } := by
  unfold Task.refreshDeadline Task.key
  split
  · rw [h.calcDeadline]
  · rfl

theorem Task.InRange.key_lt (h : t.InRange) : t.key < uint64Max := by
  unfold Task.key
  split
  · exact h.deadline
  · exact h.recorded

theorem Task.InRange.vruntime_lt (h : t.InRange) : t.vruntime < uint64Max :=
  Nat.lt_of_le_of_lt (Nat.le_add_right _ _) h.deadline

/-- A task's key is not before its vruntime. -/
theorem Task.vruntime_le_key (t : Task) : t.vruntime ≤ t.key := by
  unfold Task.key
  split
  · exact Nat.le_add_right _ _
  · omega

end

/-! ## The scan -/

section
variable (s : Scheduler) {k : Slot}

theorem keyedBelow_zero : s.keyedBelow 0 = s.tasks := by
  funext i
  exact if_neg (fun h => Nat.not_lt_zero _ h.1)

theorem keyedBelow_self : s.keyedBelow k k = s.tasks k := if_neg fun h => Nat.lt_irrefl _ h.1

theorem keyedBelow_of_ne {i : Slot} (hik : i ≠ k) : s.keyedBelow (k + 1) i = s.keyedBelow k i := by
  have hlt : i.val < k.val + 1 ↔ i.val < k.val := by
    have := Fin.val_ne_of_ne hik
    omega
  simp only [Scheduler.keyedBelow, hlt]

theorem keyedBelow_skip {s : Scheduler} (hk : ¬ s.Eligible k) : s.keyedBelow (k + 1) = s.keyedBelow k := by
  funext i
  by_cases hik : i = k
  · subst hik
    simp [Scheduler.keyedBelow, hk]
  · exact keyedBelow_of_ne s hik

theorem keyedBelow_take {s : Scheduler} (hk : s.Eligible k) :
    s.keyedBelow (k + 1) = Function.update (s.keyedBelow k) k { s.tasks k with vdeadline := (s.tasks k).key } := by
  funext i
  by_cases hik : i = k
  · subst hik
    simp [Scheduler.keyedBelow, hk]
  · rw [Function.update_of_ne hik, keyedBelow_of_ne s hik]

end

/-- What the scan knows after the first `k` slots. -/
structure EevdfScan.Exact (s : Scheduler) (k : Nat) (a : EevdfScan) : Prop where
  tasks : a.tasks = s.keyedBelow k
  best : RunningMin s.Eligible (fun i => (s.tasks i).key) uint64Max k a.bestEligible a.earliestDeadline
  least : RunningMin s.Ready (fun i => (s.tasks i).vruntime) uint64Max k a.minVruntimeTask a.minVruntime

section
variable {s : Scheduler} {a : EevdfScan} {k : Slot}

/-- Tracking the fallback is the first half of an iteration. -/
theorem EevdfScan.Exact.trackMin (h : a.Exact s k) (hk : s.Ready k) (hr : (s.tasks k).InRange) :
    (a.trackMin k).tasks = s.keyedBelow k ∧
      RunningMin s.Eligible (fun i => (s.tasks i).key) uint64Max k (a.trackMin k).bestEligible
        (a.trackMin k).earliestDeadline ∧
      RunningMin s.Ready (fun i => (s.tasks i).vruntime) uint64Max (k + 1) (a.trackMin k).minVruntimeTask
        (a.trackMin k).minVruntime := by
  have hvr : (a.tasks k).vruntime = (s.tasks k).vruntime := by rw [h.tasks, keyedBelow_self]
  unfold EevdfScan.trackMin
  rw [hvr]
  split
  · exact ⟨h.tasks, h.best, h.least.take hk ‹_›⟩
  · exact ⟨h.tasks, h.best, h.least.keep hr.vruntime_lt ‹_›⟩

theorem EevdfScan.trackEligible_exact (hk : s.Ready k) (hr : (s.tasks k).InRange) (htasks : a.tasks = s.keyedBelow k)
    (hbest : RunningMin s.Eligible (fun i => (s.tasks i).key) uint64Max k a.bestEligible a.earliestDeadline)
    (hleast : RunningMin s.Ready (fun i => (s.tasks i).vruntime) uint64Max (k + 1) a.minVruntimeTask a.minVruntime) :
    (a.trackEligible s.vsys k).Exact s (k + 1) := by
  have htask : a.tasks k = s.tasks k := by rw [htasks, keyedBelow_self]
  unfold EevdfScan.trackEligible
  simp only [htask]
  by_cases hv : (s.tasks k).vruntime ≤ s.vsys
  · have hel : s.Eligible k := ⟨hk, hv⟩
    rw [if_pos hv, hr.refreshDeadline, htasks, ← keyedBelow_take hel]
    split
    · exact ⟨rfl, hbest.take hel ‹_›, hleast⟩
    · exact ⟨rfl, hbest.keep hr.key_lt ‹_›, hleast⟩
  · have hel : ¬ s.Eligible k := fun h => hv h.2
    rw [if_neg hv]
    exact ⟨htasks.trans (keyedBelow_skip hel).symm, hbest.skip hel, hleast⟩

/-- One iteration. -/
theorem EevdfScan.Exact.visit (h : a.Exact s k) (hr : s.Ready k → (s.tasks k).InRange) :
    (a.visit s.vsys k).Exact s (k + 1) := by
  have hready : readyAt a.tasks k = if (s.tasks k).Selectable then some k else none := by
    rw [readyAt_eq, h.tasks, keyedBelow_self]
  unfold EevdfScan.visit
  rw [hready]
  by_cases hk : (s.tasks k).Selectable
  · rw [if_pos hk]
    have hcount : { a with readyCount := a.readyCount + 1 }.Exact s k := ⟨h.tasks, h.best, h.least⟩
    obtain ⟨htasks, hbest, hleast⟩ := hcount.trackMin hk (hr hk)
    exact trackEligible_exact hk (hr hk) htasks hbest hleast
  · have hel : ¬ s.Eligible k := fun h => hk h.1
    rw [if_neg hk]
    exact ⟨h.tasks.trans (keyedBelow_skip hel).symm, h.best.skip hel, h.least.skip hk⟩

/-- The whole scan. -/
theorem eevdfScan_exact (hr : ∀ i, s.Ready i → (s.tasks i).InRange) : (eevdfScan s).Exact s maxTasks := by
  unfold eevdfScan
  refine foldl_finRange_induct (fun k a => EevdfScan.Exact s k a) ?_ fun k a ha => ha.visit (hr k)
  exact ⟨(keyedBelow_zero s).symm, .start .., .start ..⟩

end

/-! ## The choice -/

/-- The scheduler after task `i` has been selected from the keyed table. -/
def Scheduler.select (s : Scheduler) (i : Slot) : Scheduler :=
  { s with tasks := Function.update (s.keyedBelow maxTasks) i (s.tasks i).renewed }

section
variable {s : Scheduler}

theorem keyedBelow_all (i : Slot) : s.keyedBelow maxTasks i =
    if s.Eligible i then { s.tasks i with vdeadline := (s.tasks i).key } else s.tasks i := by
  simp only [Scheduler.keyedBelow, i.isLt, true_and]

theorem keyedBelow_renew {i : Slot} (hr : (s.tasks i).InRange) :
    (s.keyedBelow maxTasks i).renew = (s.tasks i).renewed := by
  rw [keyedBelow_all]
  split
  · rw [← hr.renew]
    rfl
  · exact hr.renew

/-- With nothing eligible the scan writes nothing. -/
theorem keyedBelow_none (h : ∀ i, ¬ s.Eligible i) : s.keyedBelow maxTasks = s.tasks := by
  funext i
  rw [keyedBelow_all, if_neg (h i)]

/-- `eevdf_pick_next` in its four cases. -/
theorem eevdfPickNext_spec (hr : ∀ i, s.Ready i → (s.tasks i).InRange) (curr : Option Slot) :
    (∃ i, FirstMin s.Eligible (fun j => (s.tasks j).key) i ∧ eevdfPickNext s curr = (s.select i, some i)) ∨
    ((∀ i, ¬ s.Eligible i) ∧ ∃ i, FirstMin s.Ready (fun j => (s.tasks j).vruntime) i ∧
      eevdfPickNext s curr = ({ s.select i with vsys := (s.tasks i).vruntime }, some i)) ∨
    ((∀ i, ¬ s.Ready i) ∧ ∃ c, curr = some c ∧ (s.tasks c).state = .running ∧
      eevdfPickNext s curr = (s.setTask c (s.tasks c).renew, some c)) ∨
    ((∀ i, ¬ s.Ready i) ∧ (∀ c, curr = some c → (s.tasks c).state ≠ .running) ∧ eevdfPickNext s curr = (s, none)) := by
  have hscan := eevdfScan_exact hr
  have hgood := eevdfScan_good s
  unfold eevdfPickNext eevdfChoose
  generalize eevdfScan s = a at hscan hgood ⊢
  obtain ⟨htasks, hbest, hleast⟩ := hscan
  dsimp only
  cases hb : a.bestEligible with
  | some i =>
    rw [hb] at hbest
    have hmin := hbest.finish_some.2
    refine Or.inl ⟨i, hmin, ?_⟩
    simp only [Scheduler.setTask, htasks, keyedBelow_renew (hr i hmin.candidate.1)]
    rfl
  | none =>
    rw [hb] at hbest
    have hnone := hbest.finish_none
    rw [htasks, keyedBelow_none hnone]
    right
    cases hm : a.minVruntimeTask with
    | some i =>
      rw [hm] at hleast
      obtain ⟨hv, hmin⟩ := hleast.finish_some
      rw [if_pos (hgood.counted (by rw [hm]; rfl))]
      refine Or.inl ⟨hnone, i, hmin, ?_⟩
      simp only [Scheduler.select, Scheduler.setTask, keyedBelow_none hnone, hv, (hr i hmin.candidate).renew]
    | none =>
      rw [hm] at hleast
      have hempty := hleast.finish_none
      right
      rw [ite_self]
      cases curr with
      | none => exact Or.inr ⟨hempty, by simp, rfl⟩
      | some c =>
        by_cases hrun : (s.tasks c).state = .running
        · exact Or.inl ⟨hempty, c, rfl, hrun, if_pos hrun⟩
        · refine Or.inr ⟨hempty, ?_, if_neg hrun⟩
          rintro c' ⟨⟩
          exact hrun

theorem select_tasks_self (i : Slot) : (s.select i).tasks i = (s.tasks i).renewed := Function.update_self ..

theorem select_tasks_of_ne {i j : Slot} (hj : j ≠ i) : (s.select i).tasks j =
    if s.Eligible j then { s.tasks j with vdeadline := (s.tasks j).key } else s.tasks j := by
  simp only [Scheduler.select, Function.update_of_ne hj, keyedBelow_all]

end

/-- Times below 2^63 and admitted settings are in range. -/
theorem inRange_of_lt {t : Task} (h : t.Settings) (hv : t.vruntime < 2 ^ 63) (hd : t.vdeadline < 2 ^ 63) : t.InRange := by
  have hs := h.vslice_lt
  refine ⟨h, ?_, ?_⟩
  · simp only [Task.deadline, uint64Max]
    omega
  · simp only [uint64Max]
    omega

/-- **`eevdf_pick_next` is the earliest eligible deadline choice**: an eligible READY task of least key,
else the READY task of least vruntime, which `V_sys` then jumps to, else a RUNNING `curr`; the
lowest slot on ties. The choice is renewed, and of the others only eligible READY tasks change,
which record their key. -/
theorem eevdf_picks_earliest_eligible_deadline (s : Scheduler) (curr : Option Slot) (hsettings : ∀ i, (s.tasks i).Settings)
    (hv : ∀ i, (s.tasks i).vruntime < 2 ^ 63) (hd : ∀ i, (s.tasks i).vdeadline < 2 ^ 63) :
    ((∃ i, s.Eligible i) → ∃ i, (eevdfPickNext s curr).2 = some i ∧ FirstMin s.Eligible (fun j => (s.tasks j).key) i ∧
      (eevdfPickNext s curr).1.vsys = s.vsys) ∧
    ((¬ ∃ i, s.Eligible i) → (∃ i, s.Ready i) → ∃ i, (eevdfPickNext s curr).2 = some i ∧
      FirstMin s.Ready (fun j => (s.tasks j).vruntime) i ∧ (eevdfPickNext s curr).1.vsys = (s.tasks i).vruntime) ∧
    ((¬ ∃ i, s.Ready i) → (eevdfPickNext s curr).2 = curr.filter (fun c => (s.tasks c).state = .running) ∧
      (eevdfPickNext s curr).1.vsys = s.vsys) ∧
    (∀ i, (eevdfPickNext s curr).1.tasks i =
      if (eevdfPickNext s curr).2 = some i then
        { s.tasks i with
          timeSliceTicks := (s.tasks i).requestedSliceTicks
          vdeadline := (s.tasks i).vruntime + (s.tasks i).requestedSliceTicks * 65536 / (s.tasks i).weight }
      else if s.Eligible i then { s.tasks i with vdeadline := (s.tasks i).key } else s.tasks i) ∧
    (eevdfPickNext s curr).1 =
      { s with tasks := (eevdfPickNext s curr).1.tasks, vsys := (eevdfPickNext s curr).1.vsys } := by
  have hr : ∀ i, (s.tasks i).InRange := fun i => inRange_of_lt (hsettings i) (hv i) (hd i)
  have hset : ∀ i j, (s.select i).tasks j = if some i = some j then (s.tasks j).renewed else
      if s.Eligible j then { s.tasks j with vdeadline := (s.tasks j).key } else s.tasks j := by
    intro i j
    by_cases hij : j = i
    · subst hij
      rw [select_tasks_self, if_pos rfl]
    · rw [select_tasks_of_ne hij, if_neg (fun h => hij (Option.some.inj h).symm)]
  rcases eevdfPickNext_spec (fun i _ => hr i) curr with ⟨i, hmin, heq⟩ | ⟨hnone, i, hmin, heq⟩ | ⟨hempty, c, hc, hrun, heq⟩ |
    ⟨hempty, hidle, heq⟩
  · rw [heq]
    refine ⟨fun _ => ⟨i, rfl, hmin, rfl⟩, fun hno => absurd ⟨i, hmin.candidate⟩ hno,
      fun hno => absurd ⟨i, hmin.candidate.1⟩ hno, hset i, rfl⟩
  · rw [heq]
    refine ⟨fun ⟨j, hj⟩ => absurd hj (hnone j), fun _ _ => ⟨i, rfl, hmin, rfl⟩, fun hno => absurd ⟨i, hmin.candidate⟩ hno,
      hset i, rfl⟩
  · rw [heq]
    refine ⟨fun ⟨j, hj⟩ => absurd hj.1 (hempty j), fun _ ⟨j, hj⟩ => absurd hj (hempty j), fun _ => ⟨?_, rfl⟩, fun i => ?_, rfl⟩
    · rw [hc, Option.filter_some, if_pos (by simpa using hrun)]
    · have hel : ¬ s.Eligible i := fun h => hempty i h.1
      by_cases hi : i = c
      · subst hi
        simp only [Scheduler.setTask, Function.update_self, if_pos, (hr i).renew]
        rfl
      · rw [if_neg (fun h => hi (Option.some.inj h).symm), if_neg hel]
        simp only [Scheduler.setTask, Function.update_of_ne hi]
  · rw [heq]
    refine ⟨fun ⟨j, hj⟩ => absurd hj.1 (hempty j), fun _ ⟨j, hj⟩ => absurd hj (hempty j), fun _ => ⟨?_, rfl⟩, fun i => ?_, rfl⟩
    · cases curr with
      | none => rfl
      | some c => rw [Option.filter_some, if_neg (by simpa using hidle c rfl)]
    · rw [if_neg (by simp), if_neg (fun h => hempty i h.1)]

/-- Two READY tasks, the second with the longer slice. -/
def twoReady : Scheduler :=
  { schedulerBoot with
    policy := .eevdf
    tasks := taskSetSlice (taskCreate (taskCreate taskInit 10 100 0x1000 0x2000).1 20 200 0x3000 0x4000).1 secondSlot 9 }

/-- Both have key 0, so the lower slot is picked. -/
theorem eevdf_picks_earliest_eligible_deadline_two : (eevdfPickNext twoReady none).2 = some firstSlot ∧
    FirstMin twoReady.Eligible (fun j => (twoReady.tasks j).key) firstSlot := by
  have hsettings : ∀ i, (twoReady.tasks i).Settings := by
    have hall : ∀ i, 1 ≤ (twoReady.tasks i).weight ∧ (twoReady.tasks i).weight ≤ 10240 ∧
        1 ≤ (twoReady.tasks i).requestedSliceTicks ∧ (twoReady.tasks i).requestedSliceTicks < 2 ^ 32 := by decide +kernel
    intro i
    obtain ⟨h1, h2, h3, h4⟩ := hall i
    exact ⟨h1, h2, h3, h4⟩
  have hpick : (eevdfPickNext twoReady none).2 = some firstSlot := by decide +kernel
  obtain ⟨i, hi, hmin, -⟩ := (eevdf_picks_earliest_eligible_deadline twoReady none hsettings (by decide +kernel)
    (by decide +kernel)).1 ⟨firstSlot, by decide +kernel⟩
  rw [hpick] at hi
  cases hi
  exact ⟨hpick, hmin⟩

end Lettuce
