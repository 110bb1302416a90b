import LettuceKernel.EevdfClock
import Mathlib.Data.Finset.Lattice.Fold
import Mathlib.Data.Fintype.Basic
import Mathlib.Order.Lattice.Nat
import Mathlib.Tactic.Ring
/-!
# Proportional shares under EEVDF

A task of weight `w` is charged `65536 / w` a tick, so equal vruntimes mean ticks in proportion to
the weights, as far as two things hold: the truncated charges are inversely proportional to the
weights (`65536 mod w` is the same for all tasks), and vruntime moves by charges only. The second
fails when a preempted task is still behind `V_sys`: `eevdf_on_task_ready`, made for new and lagging
tasks, lifts it, and the ticks it was owed are lost (eevdf.c:190). Where both hold, a decision keeps
any two vruntimes within a slice of each other (`Fair`), and the ticks are within the bound at
every time.
-/

namespace Lettuce

open Runs FirstMins

/-- The calls before the start: tasks are created and set up. -/
def IsSetup (_ : Scheduler) : SchedEvent → Prop
  | .create .. => True
  | .setWeight .. => True
  | .setSlice .. => True
  | _ => False

def IsTick (_ : Scheduler) : SchedEvent → Prop
  | .tick .. => True
  | _ => False

instance (t : Task) : Decidable t.Live := inferInstanceAs (Decidable (_ ∧ _))

/-- The largest requested slice of a live task. -/
def largestSlice (tasks : TaskTable) : Nat :=
  Finset.univ.sup fun i => if (tasks i).Live then (tasks i).requestedSliceTicks else 0

/-- Any two tasks have run in proportion to their weights, up to two slices each. -/
def Proportional (s : Scheduler) : Prop :=
  ∀ i j, (s.tasks i).Live → (s.tasks j).Live →
    (((s.tasks i).totalTicksRun * (s.tasks j).weight : Nat) -
      ((s.tasks j).totalTicksRun * (s.tasks i).weight : Nat) : Int).natAbs ≤
      2 * largestSlice s.tasks * ((s.tasks i).weight + (s.tasks j).weight)

instance (s : Scheduler) : Decidable (Proportional s) :=
  inferInstanceAs (Decidable (∀ i j, (s.tasks i).Live → (s.tasks j).Live → _ ≤ _))

/-- Truncation takes the same off every task's charge. -/
def SameRemainder (tasks : TaskTable) : Prop :=
  ∀ i j, (tasks i).Live → (tasks j).Live → 65536 % (tasks i).weight = 65536 % (tasks j).weight

instance (tasks : TaskTable) : Decidable (SameRemainder tasks) := inferInstanceAs (Decidable (∀ _ _, _))

/-- A tick that preempts the running task does not find it behind `V_sys` after the charge. -/
def RequeuesAhead (s : Scheduler) : SchedEvent → Prop
  | .tick _ (some _) => s.active = true → ∀ c, s.OnCpu c → (s.tasks c).timeSliceTicks ≤ 1 →
    s.vsys + s.rate ≤ (s.tasks c).vruntime + (s.tasks c).rate
  | _ => True

instance (s : Scheduler) (e : SchedEvent) : Decidable (RequeuesAhead s e) :=
  match e with
  | .tick _ (some _) => inferInstanceAs (Decidable (_ → _))
  | .tick _ none | .init | .setPolicy _ | .adopt _ | .create .. | .terminate _ | .setWeight .. | .setSlice ..
  | .setPreemptLimit _ | .start | .stop | .yield .. | .sleep .. => isTrue trivial

/-- What the running task may still be charged before it is preempted. -/
def Scheduler.chargeLeft (s : Scheduler) (i : Slot) : Nat :=
  if s.OnCpu i then (s.tasks i).timeSliceTicks * (s.tasks i).rate else 0

/-- How far task `i` may get ahead of task `j`. -/
def leadOver (ti tj : Task) : Nat := max (ti.requestedSliceTicks * ti.rate) tj.vslice

/-- The books of a task, on the processor or not. -/
structure Task.InOrder (onCpu : Prop) (t : Task) : Prop where
  generation : t.generation = 1
  state : t.state = .unused ∨ t.state = .ready ∨ onCpu
  quantum : t.quantumTicks = t.requestedSliceTicks
  accounted : t.vruntime = t.totalTicksRun * t.rate
  /-- A queued task records its deadline, except before its first selection. -/
  recorded : t.state = .ready → t.vdeadline = t.deadline ∨ (t.vruntime = 0 ∧ t.vdeadline = 0)
  slice : onCpu → 1 ≤ t.timeSliceTicks

/-- The invariant between ticks, and at a decision. -/
structure Fair (s : Scheduler) : Prop where
  books : ∀ i, (s.tasks i).InOrder (s.OnCpu i)
  remainder : SameRemainder s.tasks
  lead : ∀ i j, (s.tasks i).Live → (s.tasks j).Live → i ≠ j →
    (s.tasks i).vruntime + s.chargeLeft i ≤ (s.tasks j).vruntime + leadOver (s.tasks i) (s.tasks j)

/-! ## From vruntimes to ticks -/

/-- Ticks in proportion, from vruntimes that differ by a slice. `k` is the common product of weight and charge. -/
theorem ticks_le_of_lead {ti tj : Task} {k r : Nat} (hi : ti.vruntime = ti.totalTicksRun * ti.rate)
    (hj : tj.vruntime = tj.totalTicksRun * tj.rate) (hki : ti.weight * ti.rate = k) (hkj : tj.weight * tj.rate = k)
    (hk : 65536 ≤ 2 * k) (hlead : ti.vruntime ≤ tj.vruntime + leadOver ti tj) (hri : ti.requestedSliceTicks ≤ r)
    (hrj : tj.requestedSliceTicks ≤ r) :
    ti.totalTicksRun * tj.weight ≤ tj.totalTicksRun * ti.weight + 2 * r * (ti.weight + tj.weight) := by
  have hvs : tj.weight * tj.vslice ≤ tj.requestedSliceTicks * 65536 := Nat.mul_div_le _ _
  -- the lead, weighted
  have hlead' : ti.weight * tj.weight * leadOver ti tj ≤ k * (2 * r * (ti.weight + tj.weight)) := by
    unfold leadOver
    rcases Nat.le_total (ti.requestedSliceTicks * ti.rate) tj.vslice with hle | hle
    · rw [Nat.max_eq_right hle]
      calc ti.weight * tj.weight * tj.vslice = ti.weight * (tj.weight * tj.vslice) := Nat.mul_assoc ..
        _ ≤ ti.weight * (tj.requestedSliceTicks * 65536) := Nat.mul_le_mul_left _ hvs
        _ ≤ ti.weight * (r * (2 * k)) := Nat.mul_le_mul_left _ (Nat.mul_le_mul hrj hk)
        _ = k * (2 * r * ti.weight) := by ring
        _ ≤ k * (2 * r * (ti.weight + tj.weight)) := by
          refine Nat.mul_le_mul_left _ (Nat.mul_le_mul_left _ (Nat.le_add_right ..))
    · rw [Nat.max_eq_left hle]
      calc ti.weight * tj.weight * (ti.requestedSliceTicks * ti.rate)
          = (ti.weight * ti.rate) * (ti.requestedSliceTicks * tj.weight) := by ring
        _ = k * (ti.requestedSliceTicks * tj.weight) := by rw [hki]
        _ ≤ k * (2 * r * (ti.weight + tj.weight)) := by
          refine Nat.mul_le_mul_left _ (Nat.mul_le_mul ?_ ?_)
          · omega
          · omega
  have hkpos : 0 < k := by omega
  refine Nat.le_of_mul_le_mul_left ?_ hkpos
  calc k * (ti.totalTicksRun * tj.weight) = (ti.weight * ti.rate) * (ti.totalTicksRun * tj.weight) := by rw [hki]
    _ = ti.weight * tj.weight * ti.vruntime := by rw [hi]; ring
    _ ≤ ti.weight * tj.weight * (tj.vruntime + leadOver ti tj) := Nat.mul_le_mul_left _ hlead
    _ = (tj.weight * tj.rate) * (tj.totalTicksRun * ti.weight) + ti.weight * tj.weight * leadOver ti tj := by rw [hj]; ring
    _ ≤ k * (tj.totalTicksRun * ti.weight) + k * (2 * r * (ti.weight + tj.weight)) := by
      rw [hkj]
      exact Nat.add_le_add_left hlead' _
    _ = k * (tj.totalTicksRun * ti.weight + 2 * r * (ti.weight + tj.weight)) := (Nat.mul_add ..).symm

theorem requestedSlice_le_largest {tasks : TaskTable} {i : Slot} (h : (tasks i).Live) :
    (tasks i).requestedSliceTicks ≤ largestSlice tasks := by
  have hle : (if (tasks i).Live then (tasks i).requestedSliceTicks else 0) ≤ largestSlice tasks :=
    Finset.le_sup (f := fun i => if (tasks i).Live then (tasks i).requestedSliceTicks else 0) (Finset.mem_univ i)
  rwa [if_pos h] at hle

theorem Fair.proportional {s : Scheduler} (h : Fair s) (hsettings : ∀ i, (s.tasks i).Settings) : Proportional s := by
  -- weight times charge is 65536 less the remainder
  have hproduct : ∀ i, (s.tasks i).weight * (s.tasks i).rate + 65536 % (s.tasks i).weight = 65536 := by
    intro i
    exact Nat.div_add_mod 65536 _
  have hhalf : ∀ i, 65536 ≤ 2 * ((s.tasks i).weight * (s.tasks i).rate) := by
    intro i
    have hp := hproduct i
    have hmod := Nat.mod_lt 65536 (hsettings i).weight_pos
    have hle := (hsettings i).weight_le
    omega
  have hbound : ∀ i j, (s.tasks i).Live → (s.tasks j).Live → (s.tasks i).totalTicksRun * (s.tasks j).weight ≤
      (s.tasks j).totalTicksRun * (s.tasks i).weight +
        2 * largestSlice s.tasks * ((s.tasks i).weight + (s.tasks j).weight) := by
    intro i j hi hj
    by_cases hij : i = j
    · subst hij
      exact Nat.le_add_right _ _
    · have hpi := hproduct i
      have hpj := hproduct j
      have heq := h.remainder i j hi hj
      have hlead := h.lead i j hi hj hij
      refine ticks_le_of_lead (h.books i).accounted (h.books j).accounted rfl ?_ (hhalf i) ?_ (requestedSlice_le_largest hi)
        (requestedSlice_le_largest hj)
      · omega
      · omega
  intro i j hi hj
  have h1 := hbound i j hi hj
  have h2 := hbound j i hj hi
  rw [Nat.add_comm (s.tasks j).weight] at h2
  omega

/-! ## Queued tasks -/

section
variable {t : Task} {p q : Prop}

theorem Task.InOrder.congr (h : t.InOrder p) (hpq : p ↔ q) : t.InOrder q := propext hpq ▸ h

theorem Task.InOrder.scanned (h : t.InOrder p) (hs : t.state ≠ .unused) : t.Scanned := scanned_of_generation h.generation hs

/-- A queued task's key is the deadline it records, and no later than its deadline. -/
theorem Task.InOrder.key (h : t.InOrder p) (hs : t.state = .ready) : t.key = t.vdeadline ∧ t.key ≤ t.deadline := by
  have hle : t.vruntime ≤ t.deadline := Nat.le_add_right _ _
  have hkey : t.key = t.vdeadline := by
    unfold Task.key
    rcases h.recorded hs with hd | ⟨hv, hd⟩
    · exact if_neg (by omega)
    · exact if_neg (by omega)
  refine ⟨hkey, ?_⟩
  rcases h.recorded hs with hd | ⟨-, hd⟩
  · omega
  · omega

/-- So recording the key changes nothing. -/
theorem Task.InOrder.keyed (h : t.InOrder p) (hs : t.state = .ready) : { t with vdeadline := t.key } = t := by
  rw [(h.key hs).1]

theorem mul_rate_le_vslice (t : Task) : t.requestedSliceTicks * t.rate ≤ t.vslice := by
  unfold Task.rate Task.vslice
  exact Nat.mul_div_le_mul_div_assoc _ _ _

/-- Weights and slices are all that `leadOver` reads. -/
theorem leadOver_congr {ti ti' tj tj' : Task} (hri : ti'.requestedSliceTicks = ti.requestedSliceTicks)
    (hwi : ti'.weight = ti.weight) (hrj : tj'.requestedSliceTicks = tj.requestedSliceTicks)
    (hwj : tj'.weight = tj.weight) : leadOver ti' tj' = leadOver ti tj := by
  simp only [leadOver, Task.rate, Task.vslice, hri, hwi, hrj, hwj]

theorem SameRemainder.congr {tasks tasks' : TaskTable} (h : SameRemainder tasks)
    (hw : ∀ i, (tasks' i).weight = (tasks i).weight) (hl : ∀ i, (tasks' i).Live → (tasks i).Live) : SameRemainder tasks' := by
  intro i j hi hj
  rw [hw i, hw j]
  exact h i j (hl i hi) (hl j hj)

end

section
variable {s s' : Scheduler}

theorem chargeLeft_of_not_onCpu {i : Slot} (h : ¬ s.OnCpu i) : s.chargeLeft i = 0 := if_neg h

theorem Fair.ready (h : Fair s) {i : Slot} (hs : (s.tasks i).state = .ready) : s.Ready i :=
  ⟨(h.books i).scanned (by simp [hs]), hs⟩

/-- Nobody sleeps, so the wake scan changes nothing. -/
theorem Fair.wakeSleepers (h : Fair s) (now : Nat) : wakeSleepers s now = s := by
  have hsame : (Lettuce.wakeSleepers s now).tasks = s.tasks := by
    funext i
    have hawake : (s.tasks i).state ≠ .sleeping := by
      rcases (h.books i).state with hs | hs | hs
      · simp [hs]
      · simp [hs]
      · simp [hs.2]
    rw [wakeSleepers_tasks]
    split
    · exact Task.wake_of_not_due (fun hd => hawake hd.1)
    · rfl
  unfold Lettuce.wakeSleepers at hsame ⊢
  dsimp only at hsame
  rw [hsame]

/-- Without a task on the processor every live task is queued. -/
theorem Fair.queued (h : Fair s) (hoff : ∀ i, ¬ s.OnCpu i) {i : Slot} (hl : (s.tasks i).Live) : (s.tasks i).state = .ready := by
  rcases (h.books i).state with hs | hs | hs
  · exact absurd hs hl.1
  · exact hs
  · exact absurd hs (hoff i)

theorem Fair.onCpu_of_running (h : Fair s) {i : Slot} (hrun : (s.tasks i).state = .running) : s.OnCpu i := by
  rcases (h.books i).state with hs | hs | hs
  · rw [hs] at hrun; cases hrun
  · rw [hs] at hrun; cases hrun
  · exact hs

/-! ## A decision -/

section
variable {j : Slot}

/-- The task a decision selects leads no other one by more than a slice, even after its run. -/
theorem Fair.selected_lead (h : Fair s) (hsel : Selects s j s') {i : Slot} (hi : (s.tasks i).state = .ready) :
    (s.tasks j).vruntime + (s.tasks j).requestedSliceTicks * (s.tasks j).rate ≤
      (s.tasks i).vruntime + leadOver (s.tasks j) (s.tasks i) := by
  have hj : (s.tasks j).state = .ready := hsel.ready.2
  have hslice := mul_rate_le_vslice (s.tasks j)
  have hmax1 : (s.tasks j).requestedSliceTicks * (s.tasks j).rate ≤ leadOver (s.tasks j) (s.tasks i) := Nat.le_max_left _ _
  have hmax2 : (s.tasks i).vslice ≤ leadOver (s.tasks j) (s.tasks i) := Nat.le_max_right _ _
  rcases hsel.choice with ⟨hmin, -⟩ | ⟨-, hmin, -⟩
  · by_cases hel : (s.tasks i).vruntime ≤ s.vsys
    · -- both are eligible, and the deadlines decide
      have hle : (s.tasks j).key ≤ (s.tasks i).key := hmin.least i ⟨h.ready hi, hel⟩
      have hkj := ((h.books j).key hj).1
      have hki := ((h.books i).key hi).2
      rcases (h.books j).recorded hj with hd | ⟨hv, -⟩
      · simp only [Task.deadline] at hd hki
        omega
      · omega
    · have hv := hmin.candidate.2
      omega
  · have hle : (s.tasks j).vruntime ≤ (s.tasks i).vruntime := hmin.least i (h.ready hi)
    omega

/-- All a decision writes is in the task it selects. -/
theorem Fair.selects_others (h : Fair s) (hsel : Selects s j s') {i : Slot} (hij : i ≠ j) : s'.tasks i = s.tasks i := by
  rw [hsel.others i hij]
  split
  · rename_i hel
    exact (h.books i).keyed hel.1.2
  · rfl

theorem Fair.selects_settings (h : Fair s) (hsel : Selects s j s') (i : Slot) :
    (s'.tasks i).requestedSliceTicks = (s.tasks i).requestedSliceTicks ∧ (s'.tasks i).weight = (s.tasks i).weight ∧
      ((s'.tasks i).Live → (s.tasks i).Live) := by
  by_cases hij : i = j
  · rw [hij, hsel.task]
    exact ⟨rfl, rfl, fun _ => live_of_state hsel.ready.2 (by decide)⟩
  · rw [h.selects_others hsel hij]
    exact ⟨rfl, rfl, id⟩

theorem Fair.selects_slice (h : Fair s) (hsel : Selects s j s') :
    (s'.tasks j).timeSliceTicks = (s.tasks j).requestedSliceTicks := by
  rw [hsel.task]
  simp only [(h.books j).quantum, ite_self]

theorem Fair.selects_books (h : Fair s) (hsettings : ∀ i, (s.tasks i).Settings) (hsel : Selects s j s')
    (hoff : ∀ i, ¬ s.OnCpu i) (i : Slot) : (s'.tasks i).InOrder (s'.OnCpu i) := by
  by_cases hij : i = j
  · subst hij
    have hon := (hsel.onCpu i).2 rfl
    refine ⟨?_, Or.inr (Or.inr hon), ?_, ?_, fun hready => ?_, fun _ => ?_⟩
    · rw [hsel.task]
      exact (h.books i).generation
    · rw [hsel.task]
      exact (h.books i).quantum
    · rw [hsel.task]
      exact (h.books i).accounted
    · rw [hon.2] at hready
      cases hready
    · rw [h.selects_slice hsel]
      exact (hsettings i).slice_pos
  · rw [h.selects_others hsel hij]
    exact (h.books i).congr (iff_of_false (hoff i) fun hon => hij ((hsel.onCpu i).1 hon))

/-- A decision keeps the balance. -/
theorem Fair.selects (h : Fair s) (hsettings : ∀ i, (s.tasks i).Settings) (hsel : Selects s j s') (hoff : ∀ i, ¬ s.OnCpu i) :
    Fair s' := by
  have hsame := h.selects_settings hsel
  refine ⟨h.selects_books hsettings hsel hoff, ?_, fun i k hi hk hik => ?_⟩
  · exact h.remainder.congr (fun i => (hsame i).2.1) (fun i => (hsame i).2.2)
  · obtain ⟨hreqi, hweighti, hlivei⟩ := hsame i
    obtain ⟨hreqk, hweightk, hlivek⟩ := hsame k
    rw [hsel.vruntime, hsel.vruntime, leadOver_congr hreqi hweighti hreqk hweightk]
    by_cases hij : i = j
    · -- the selected task may run for its slice
      subst hij
      have hleft : s'.chargeLeft i = (s.tasks i).requestedSliceTicks * (s.tasks i).rate := by
        unfold Scheduler.chargeLeft
        rw [if_pos ((hsel.onCpu i).2 rfl), h.selects_slice hsel]
        simp only [Task.rate, hweighti]
      rw [hleft]
      exact h.selected_lead hsel (h.queued hoff (hlivek hk))
    · rw [chargeLeft_of_not_onCpu (fun hon => hij ((hsel.onCpu i).1 hon))]
      have hlead := h.lead i k (hlivei hi) (hlivek hk) hik
      rwa [chargeLeft_of_not_onCpu (hoff i)] at hlead

/-- A decision, whether it finds a task or not. -/
theorem Fair.selectNext (h : Fair s) {n : Nat} (hv : VirtualTime n s) (hlimit : 65536 * n ≤ clockLimit)
    (hoff : ∀ i, ¬ s.OnCpu i) (frame : TrapFrame) (pre : Bool) : Fair (selectNext s frame pre).sched := by
  have hcur : ∀ c, s.current = some c → (s.tasks c).state ≠ .running := fun c _ hrun => hoff c (h.onCpu_of_running hrun)
  by_cases hready : ∃ i, s.Ready i
  · obtain ⟨i, hi⟩ := hready
    obtain ⟨j, -, hsel⟩ := selectNext_selects hv.clock.policy (fun i _ => (hv.clock.tasks i).inRange hlimit) hi frame pre
    exact h.selects (fun i => (hv.clock.tasks i).settings) hsel hoff
  · rcases selectNext_idle hv.clock.policy (fun i hi => hready ⟨i, hi⟩) hcur frame pre with heq | ⟨c, hc, -⟩
    · rw [heq]; exact h
    · exact absurd ⟨c, h.ready hc⟩ hready

end

/-! ## A charge -/

/-- A tick charges the running task `c`; no other task is touched. -/
structure Charges (s : Scheduler) (c : Slot) (s' : Scheduler) : Prop where
  others : ∀ i, i ≠ c → s'.tasks i = s.tasks i
  current : s'.current = some c
  generation : (s'.tasks c).generation = (s.tasks c).generation
  quantum : (s'.tasks c).quantumTicks = (s.tasks c).quantumTicks
  requested : (s'.tasks c).requestedSliceTicks = (s.tasks c).requestedSliceTicks
  weight : (s'.tasks c).weight = (s.tasks c).weight
  vruntime : (s'.tasks c).vruntime = (s.tasks c).vruntime + (s.tasks c).rate
  ticks : (s'.tasks c).totalTicksRun = (s.tasks c).totalTicksRun + 1
  /-- It is queued with its deadline, or goes on with one tick less. -/
  next : ((s'.tasks c).state = .ready ∧ (s'.tasks c).vdeadline = (s'.tasks c).deadline) ∨
    ((s'.tasks c).state = .running ∧ 1 ≤ (s'.tasks c).timeSliceTicks ∧
      (s'.tasks c).timeSliceTicks + 1 = (s.tasks c).timeSliceTicks)

section
variable {c : Slot}

theorem Charges.onCpu (h : Charges s c s') {i : Slot} (hon : s'.OnCpu i) : i = c :=
  Option.some.inj (hon.1.symm.trans h.current)

theorem Charges.settings (h : Charges s c s') (hon : s.OnCpu c) (i : Slot) :
    (s'.tasks i).requestedSliceTicks = (s.tasks i).requestedSliceTicks ∧ (s'.tasks i).weight = (s.tasks i).weight ∧
      ((s'.tasks i).Live → (s.tasks i).Live) := by
  by_cases hic : i = c
  · rw [hic]
    exact ⟨h.requested, h.weight, fun _ => live_of_state hon.2 (by decide)⟩
  · rw [h.others i hic]
    exact ⟨rfl, rfl, id⟩

/-- The charge comes out of what was left. -/
theorem Charges.chargeLeft_le (h : Charges s c s') (hon : s.OnCpu c) (hslice : 1 ≤ (s.tasks c).timeSliceTicks) :
    s'.chargeLeft c + (s.tasks c).rate ≤ s.chargeLeft c := by
  have hbefore : s.chargeLeft c = (s.tasks c).timeSliceTicks * (s.tasks c).rate := if_pos hon
  rw [hbefore]
  rcases h.next with ⟨hready, -⟩ | ⟨hrun, -, hts⟩
  · have hidle : ¬ s'.OnCpu c := by
      intro hrun
      rw [hrun.2] at hready
      cases hready
    rw [chargeLeft_of_not_onCpu hidle, Nat.zero_add]
    exact Nat.le_mul_of_pos_left _ hslice
  · have hafter : s'.chargeLeft c = (s'.tasks c).timeSliceTicks * (s'.tasks c).rate := if_pos ⟨h.current, hrun⟩
    have hrate : (s'.tasks c).rate = (s.tasks c).rate := by simp only [Task.rate, h.weight]
    rw [hafter, hrate, ← hts, Nat.succ_mul]

theorem Fair.charges_books (h : Fair s) (hcharge : Charges s c s') (hon : s.OnCpu c) (i : Slot) :
    (s'.tasks i).InOrder (s'.OnCpu i) := by
  by_cases hic : i = c
  · subst hic
    obtain ⟨hgeneration, -, hquantum, haccounted, -, -⟩ := h.books i
    have hrate : (s'.tasks i).rate = (s.tasks i).rate := by simp only [Task.rate, hcharge.weight]
    refine ⟨hcharge.generation.trans hgeneration, ?_, ?_, ?_, fun hready => ?_, fun hrun => ?_⟩
    · rcases hcharge.next with ⟨hready, -⟩ | ⟨hrun, -⟩
      · exact Or.inr (Or.inl hready)
      · exact Or.inr (Or.inr ⟨hcharge.current, hrun⟩)
    · rw [hcharge.quantum, hcharge.requested, hquantum]
    · rw [hcharge.vruntime, hcharge.ticks, hrate, Nat.succ_mul, ← haccounted]
    · rcases hcharge.next with ⟨-, hd⟩ | ⟨hrun, -⟩
      · exact Or.inl hd
      · rw [hrun] at hready
        cases hready
    · rcases hcharge.next with ⟨hready, -⟩ | ⟨-, hts, -⟩
      · rw [hrun.2] at hready
        cases hready
      · exact hts
  · rw [hcharge.others i hic]
    refine (h.books i).congr (iff_of_false (fun hi => hic ?_) fun hi => hic (hcharge.onCpu hi))
    exact (hon.iff_eq i).1 hi

/-- A charge keeps the balance. -/
theorem Fair.charges (h : Fair s) (hcharge : Charges s c s') (hon : s.OnCpu c) : Fair s' := by
  have hsame := hcharge.settings hon
  have hleft := hcharge.chargeLeft_le hon ((h.books c).slice hon)
  refine ⟨h.charges_books hcharge hon, ?_, fun i k hi hk hik => ?_⟩
  · exact h.remainder.congr (fun i => (hsame i).2.1) (fun i => (hsame i).2.2)
  · obtain ⟨hreqi, hweighti, hlivei⟩ := hsame i
    obtain ⟨hreqk, hweightk, hlivek⟩ := hsame k
    have hlead := h.lead i k (hlivei hi) (hlivek hk) hik
    rw [leadOver_congr hreqi hweighti hreqk hweightk]
    by_cases hic : i = c
    · subst hic
      rw [hcharge.vruntime, hcharge.others k (Ne.symm hik)]
      omega
    · rw [chargeLeft_of_not_onCpu (fun hi => hic (hcharge.onCpu hi)), hcharge.others i hic]
      by_cases hkc : k = c
      · -- the other one is charged, and the lead shrinks
        subst hkc
        rw [hcharge.vruntime]
        omega
      · rw [hcharge.others k hkc]
        omega

end

/-! ## A tick -/

theorem charged_ticks_eq {t : Task} {n : Nat} (h : t.totalTicksRun ≤ n) (hn : n ≤ 2 ^ 46) :
    t.charged.totalTicksRun = t.totalTicksRun + 1 := Nat.mod_eq_of_lt (by omega)

section
variable {c : Slot} {n : Nat}

/-- A tick within the slice. -/
theorem Fair.onTick (h : Fair s) (hv : VirtualTime n s) (hn : n ≤ 2 ^ 46) (hon : s.OnCpu c)
    (hslice : 1 < (s.tasks c).timeSliceTicks) (now : Nat) : Fair (onTick (Lettuce.wakeSleepers s now) c 1) := by
  have hlimit := clockLimit_ticks hn
  obtain ⟨hcur, -, htask, hothers⟩ := hv.clock.onTick_running (by omega) now hon.1 hon.2
  rw [h.wakeSleepers] at hcur htask hothers ⊢
  have hts : ((Lettuce.onTick s c 1).tasks c).timeSliceTicks = (s.tasks c).timeSliceTicks - 1 := by
    rw [htask]
    exact if_pos (by omega)
  refine h.charges (c := c) ⟨hothers, hcur, ?_, ?_, ?_, ?_, ?_, ?_, Or.inr ⟨?_, ?_, ?_⟩⟩ hon
  · rw [htask]; rfl
  · rw [htask]; rfl
  · rw [htask]; rfl
  · rw [htask]; rfl
  · rw [htask]; rfl
  · rw [htask]
    exact charged_ticks_eq (hv.ticks c) hn
  · rw [htask]
    exact hon.2
  · omega
  · omega

/-- The last tick of the slice, where the task is not behind: nothing is aligned. -/
theorem Fair.prepared_running (h : Fair s) (hv : VirtualTime n s) (hn : n ≤ 2 ^ 46) (hon : s.OnCpu c)
    (hahead : s.vsys + s.rate ≤ (s.tasks c).vruntime + (s.tasks c).rate) (now : Nat) (frame : TrapFrame) :
    Fair (prepared s now frame) := by
  obtain ⟨-, htask, hothers⟩ := hv.clock.prepared_running (clockLimit_ticks hn) now frame hon.1 hon.2
  rw [h.wakeSleepers] at htask hothers
  have hmax : max ((s.tasks c).vruntime + (s.tasks c).rate) (s.vsys + s.rate) = (s.tasks c).vruntime + (s.tasks c).rate :=
    Nat.max_eq_left hahead
  have hvr : ((prepared s now frame).tasks c).vruntime = (s.tasks c).vruntime + (s.tasks c).rate := by
    rw [htask]
    exact hmax
  refine h.charges (c := c) ⟨hothers, ?_, ?_, ?_, ?_, ?_, hvr, ?_, Or.inl ⟨?_, ?_⟩⟩ hon
  · rw [(prepared_mech s now frame).1, hon.1]
  · rw [htask]; rfl
  · rw [htask]; rfl
  · rw [htask]; rfl
  · rw [htask]; rfl
  · rw [htask]
    exact charged_ticks_eq (hv.ticks c) hn
  · rw [htask]; rfl
  · rw [htask]; rfl

/-- Up to the decision. -/
theorem Fair.prepared (h : Fair s) (hv : VirtualTime n s) (hn : n ≤ 2 ^ 46)
    (hahead : ∀ c, s.OnCpu c → s.vsys + s.rate ≤ (s.tasks c).vruntime + (s.tasks c).rate) (now : Nat) (frame : TrapFrame) :
    Fair (prepared s now frame) := by
  rcases running_or_not s with ⟨c, hc, hrun⟩ | hno
  · exact h.prepared_running hv hn ⟨hc, hrun⟩ (hahead c ⟨hc, hrun⟩) now frame
  · rw [prepared_of_not_running s now frame hno, h.wakeSleepers]
    exact h

theorem VirtualTime.tick (hv : VirtualTime n s) (hn : n ≤ 2 ^ 46) {e : SchedEvent} (he : IsTick s e) :
    VirtualTime (n + 1) (schedStep s e) := by
  cases e with
  | tick now frame =>
    have hcall : VirtualTime n (⟨s, now.toNat, frame, true⟩ : ScheduleCall).sched := hv
    obtain ⟨hresult, -⟩ := hcall.call hn rfl
    refine hresult.mono ?_
    split <;> omega
  | _ => exact he.elim

theorem Fair.tick (h : Fair s) (hv : VirtualTime n s) (hn : n ≤ 2 ^ 46) {e : SchedEvent} (he : IsTick s e)
    (hahead : RequeuesAhead s e) : Fair (schedStep s e) := by
  cases e with
  | tick now frame =>
    have hlimit := clockLimit_ticks hn
    have hstep : schedStep s (.tick now frame) = (doSchedule s now.toNat frame true).sched := rfl
    rw [hstep]
    rcases doSchedule_decision s now.toNat frame true with ⟨-, heq, -⟩ | ⟨c, f, -, -, -, hc, hrun, -, hslice, heq⟩ |
      ⟨f, hdecision, ha, rfl, heq⟩
    · rw [heq]
      exact h
    · rw [heq]
      exact h.onTick hv hn ⟨hc, hrun⟩ hslice now.toNat
    · have hspent : ∀ c, s.OnCpu c → (s.tasks c).timeSliceTicks ≤ 1 := by
        intro c hon
        by_contra hslice
        have hkeep : s.keepsSlice true = true := keepsSlice_eq_true.2 ⟨rfl, c, hon.1, hon.2, by omega⟩
        simp [decisionState, ha, hkeep] at hdecision
      have hprep := h.prepared hv hn (fun c hon => hahead ha c hon (hspent c hon)) now.toNat f
      have hvprep := hv.prepared hn (Nat.le_succ n) (Nat.le_refl _) now.toNat (fun _ _ _ => Nat.le_refl _) f
      have hoff : ∀ c, ¬ (Lettuce.prepared s now.toNat f).OnCpu c := by
        intro c hon
        have hc : s.current = some c := (prepared_mech s now.toNat f).1.symm.trans hon.1
        exact prepared_current_ne_running s now.toNat f hc hon.2
      rw [heq]
      exact hprep.selectNext hvprep (by omega) hoff f true
  | _ => exact he.elim

end

end

/-! ## Runs -/

/-- A task that has not run, or a free slot. -/
structure Task.Fresh (t : Task) : Prop where
  generation : t.generation = 1
  state : t.state = .unused ∨ t.state = .ready
  quantum : t.quantumTicks = t.requestedSliceTicks
  vruntime : t.vruntime = 0
  vdeadline : t.vdeadline = 0
  ticks : t.totalTicksRun = 0

/-- Before the start. -/
structure Unstarted (s : Scheduler) : Prop where
  current : s.current = none
  tasks : ∀ i, (s.tasks i).Fresh

section
variable {s : Scheduler} {e : SchedEvent}

theorem Unstarted.step (h : Unstarted s) (he : IsSetup s e) : Unstarted (schedStep s e) := by
  cases e with
  | create serviceId domainId entryPc stackTop =>
    refine ⟨h.current, ?_⟩
    simp only [schedStep, schedCall, taskCreate]
    split
    · exact h.tasks
    · rename_i i _
      refine every_update h.tasks ⟨?_, Or.inr rfl, rfl, rfl, rfl, rfl⟩
      simp [(h.tasks i).generation]
  | setWeight task weight =>
    obtain ⟨hgeneration, hstate, hquantum, hvruntime, hvdeadline, hticks⟩ := h.tasks task
    exact ⟨h.current, every_update h.tasks ⟨hgeneration, hstate, hquantum, hvruntime, hvdeadline, hticks⟩⟩
  | setSlice task sliceTicks =>
    obtain ⟨hgeneration, hstate, -, hvruntime, hvdeadline, hticks⟩ := h.tasks task
    exact ⟨h.current, every_update h.tasks ⟨hgeneration, hstate, rfl, hvruntime, hvdeadline, hticks⟩⟩
  | _ => exact he.elim

theorem VirtualTime.setup (hv : VirtualTime 0 s) (he : IsSetup s e) : VirtualTime 0 (schedStep s e) := by
  cases e with
  | create serviceId domainId entryPc stackTop => exact (hv.step (e := .create ..) trivial (Nat.zero_le _) rfl).1
  | setWeight task weight => exact (hv.step (e := .setWeight ..) trivial (Nat.zero_le _) rfl).1
  | setSlice task sliceTicks => exact (hv.step (e := .setSlice ..) trivial (Nat.zero_le _) rfl).1
  | _ => exact he.elim

theorem eevdfStart_unstarted (s₀ : Scheduler) : Unstarted (eevdfStart s₀) := by
  have htasks : (eevdfStart s₀).tasks = taskInit := schedulerInit_tasks s₀
  refine ⟨schedulerInit_current s₀, fun i => ?_⟩
  rw [htasks]
  exact ⟨rfl, Or.inl rfl, rfl, rfl, rfl, rfl⟩

/-- At the start all vruntimes are equal. -/
theorem Unstarted.fair (h : Unstarted s) (hsame : SameRemainder s.tasks) : Fair (schedStep s .start) := by
  have htasks : (schedStep s .start).tasks = s.tasks := rfl
  have hoff : ∀ i, ¬ (schedStep s .start).OnCpu i := by
    intro i hon
    have hcur : s.current = some i := hon.1
    rw [h.current] at hcur
    cases hcur
  refine ⟨fun i => ?_, hsame, fun i k _ _ _ => ?_⟩
  · obtain ⟨hgeneration, hstate, hquantum, hvruntime, hvdeadline, hticks⟩ := h.tasks i
    refine ⟨hgeneration, ?_, hquantum, ?_, fun _ => Or.inr ⟨hvruntime, hvdeadline⟩, fun hi => absurd hi (hoff i)⟩
    · rcases hstate with hs | hs
      · exact Or.inl hs
      · exact Or.inr (Or.inl hs)
    · rw [htasks, hvruntime, hticks, Nat.zero_mul]
  · rw [chargeLeft_of_not_onCpu (hoff i), htasks, (h.tasks i).vruntime]
    exact Nat.zero_le _

/-- The ticks of a run keep the balance. -/
theorem Fair.run {s' : Scheduler} {h : SchedHistory} (r : Run IsTick schedStep s h s') (h0 : Fair s) (hv : VirtualTime 0 s)
    (hn : h.length ≤ 2 ^ 46) (hahead : ∀ p ∈ h, RequeuesAhead p.1 p.2) : Fair s' ∧ VirtualTime h.length s' := by
  induction r with
  | start => exact ⟨h0, hv⟩
  | @next h s' r e he ih =>
    rw [List.length_cons] at hn
    obtain ⟨hfair, hvt⟩ := ih (by omega) fun p hp => hahead p (List.mem_cons_of_mem _ hp)
    exact ⟨hfair.tick hvt (by omega) he (hahead _ (List.mem_cons_self ..)), hvt.tick (by omega) he⟩

end

/-- **Proportional fairness**: tasks set up before the start run in proportion to their weights, up to two
slices each, however long they run, if truncation treats them alike and no requeued task is lifted. -/
theorem eevdf_proportional_fairness (s₀ : Scheduler) {hs h : SchedHistory} {s₁ s : Scheduler}
    (setup : Run IsSetup schedStep (eevdfStart s₀) hs s₁) (r : Run IsTick schedStep (schedStep s₁ .start) h s)
    (hn : h.length ≤ 2 ^ 46) (hsame : SameRemainder s₁.tasks) (hahead : ∀ p ∈ h, RequeuesAhead p.1 p.2) :
    Proportional s := by
  have hbefore : Unstarted s₁ ∧ VirtualTime 0 s₁ :=
    setup.invariant (I := fun s => Unstarted s ∧ VirtualTime 0 s) ⟨eevdfStart_unstarted s₀, eevdfStart_virtualTime s₀⟩
      fun _ _ he hi => ⟨hi.1.step he, hi.2.setup he⟩
  have hstart : VirtualTime 0 (schedStep s₁ .start) := (hbefore.2.step (e := .start) trivial (Nat.zero_le _) rfl).1
  obtain ⟨hfair, hvt⟩ := Fair.run r (hbefore.1.fair hsame) hstart hn hahead
  exact hfair.proportional fun i => (hvt.clock.tasks i).settings

/-- Timer interrupts at the times given. -/
def timerTicks (times : List (BitVec 64)) : List SchedEvent :=
  times.map fun now => .tick now (some (initialContext 0 0).restore)

theorem timerTicks_admits (s : Scheduler) (times : List (BitVec 64)) : Admits IsTick schedStep s (timerTicks times) := by
  induction times generalizing s with
  | nil => trivial
  | cons now times ih => exact ⟨trivial, ih _⟩

/-- The first task has eight times the weight of the second, and slices of four ticks. -/
def eightToOne : List SchedEvent :=
  [.create 10 100 0x1000 0x2000, .create 20 200 0x3000 0x4000, .setWeight firstSlot 8, .setWeight secondSlot 1,
    .setSlice firstSlot 4, .setSlice secondSlot 1]

theorem eevdf_proportional_fairness_eight :
    let s₁ := (traceFrom schedStep [] (eevdfStart schedulerBoot) eightToOne).2
    let t := traceFrom schedStep [] (schedStep s₁ .start) (timerTicks [0, 1, 2, 3, 4, 5])
    ((t.2.tasks 0).totalTicksRun, (t.2.tasks 1).totalTicksRun) = (4, 1) ∧ Proportional t.2 := by
  intro s₁ t
  have setup : Run IsSetup schedStep (eevdfStart schedulerBoot) _ s₁ :=
    Run.start.trace ⟨trivial, trivial, trivial, trivial, trivial, trivial, trivial⟩
  have r : Run IsTick schedStep (schedStep s₁ .start) t.1 t.2 := Run.start.trace (timerTicks_admits _ _)
  have hn : t.1.length ≤ 2 ^ 46 := by simp [t, length_traceFrom, timerTicks]
  have hsame : SameRemainder s₁.tasks := by decide +kernel
  have hahead : ∀ p ∈ t.1, RequeuesAhead p.1 p.2 := by decide +kernel
  exact ⟨by decide +kernel, eevdf_proportional_fairness schedulerBoot setup r hn hsame hahead⟩

/-! ## Where the shares are lost -/

/-- Sixteen tasks with slices of one tick and weights 16, 128, 1, 1, ... -/
def unevenWeights : List SchedEvent :=
  List.replicate 16 (.create 10 100 0x1000 0x2000) ++ (List.finRange 16).map (.setSlice · 1) ++
    (List.finRange 16).map fun i => .setWeight i (if i = firstSlot then 16 else if i = secondSlot then 128 else 1)

theorem unevenWeights_admits (s : Scheduler) : Admits IsSetup schedStep s unevenWeights := by
  refine admits_of_mem s fun s e he => ?_
  rcases List.mem_append.1 he with he | he
  · rcases List.mem_append.1 he with he | he
    · rw [List.eq_of_mem_replicate he]
      trivial
    · obtain ⟨i, -, rfl⟩ := List.mem_map.1 he
      trivial
  · obtain ⟨i, -, rfl⟩ := List.mem_map.1 he
    trivial

/-- After 22 charged ticks the first two have run for 3 and 5: `3 * 128 - 5 * 16 = 304`, and the bound is 288. All charges
are exact; the task of weight 128 is lifted to `V_sys` whenever it is preempted. -/
theorem eevdf_shares_lost :
    let t₁ := traceFrom schedStep [] (eevdfStart schedulerBoot) unevenWeights
    let t := traceFrom schedStep [] (schedStep t₁.2 .start) (timerTicks ((List.range 23).map (BitVec.ofNat 64)))
    Run IsSetup schedStep (eevdfStart schedulerBoot) t₁.1 t₁.2 ∧ Run IsTick schedStep (schedStep t₁.2 .start) t.1 t.2 ∧
    t.1.length < 2 ^ 46 ∧ SameRemainder t₁.2.tasks ∧ ¬ Proportional t.2 := by
  intro t₁ t
  refine ⟨Run.start.trace (unevenWeights_admits _), Run.start.trace (timerTicks_admits _ _), ?_, ?_, ?_⟩
  · simp [t, length_traceFrom, timerTicks]
  · decide +kernel
  · decide +kernel

end Lettuce
