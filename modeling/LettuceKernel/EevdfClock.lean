import LettuceKernel.EevdfStep
import Mathlib.Algebra.GroupWithZero.Nat
/-!
# Virtual time neither wraps nor runs backwards

A charged tick adds at most `SCALE` to one vruntime and to `V_sys`; waking and requeueing lift a
task to `V_sys` and no further, and `V_sys` jumps to a vruntime. So after `n` charged ticks
`65536 * n` bounds all of them (`ClockBound`), and up to 2^46 charged ticks every sum and
product of the policy is exact. `V_sys` jumps only when no READY task is eligible, that is, upwards.
-/

namespace Lettuce

open Runs FirstMins

/-- `lettuce_eevdf_get_lag` (eevdf.c:52), as the `int64_t` it returns. -/
def eevdfGetLag (vsys : Nat) (t : Task) : Int := (BitVec.ofNat 64 vsys - BitVec.ofNat 64 t.vruntime).toInt

def eevdfStart (s₀ : Scheduler) : Scheduler := setPolicy (schedulerInit s₀) .eevdf

/-- The call reaches `on_tick` with a RUNNING task. -/
def ScheduleCall.charges (k : ScheduleCall) : Bool :=
  k.sched.active && k.frame.isSome && match k.sched.current with
    | none => false
    | some c => decide ((k.sched.tasks c).state = .running)

def chargedTicks : SchedHistory → Nat
  | [] => 0
  | (s, e) :: h => ((scheduleCall s e).filter ScheduleCall.charges).toList.length + chargedTicks h

/-- The states in which a call computes virtual times: after the wake scan and at the decision. -/
def ScheduleCall.workingStates (k : ScheduleCall) : List Scheduler :=
  match k.frame with
  | none => []
  | some frame => if k.sched.active then [wakeSleepers k.sched k.now, prepared k.sched k.now frame] else []

def workingStates (s : Scheduler) (e : SchedEvent) : List Scheduler :=
  ((scheduleCall s e).map ScheduleCall.workingStates).getD []

/-- What a task contributes to `get_active_weight_sum`. -/
def Task.activeWeight (t : Task) : Nat := if t.Scanned ∧ (t.state = .ready ∨ t.state = .running) then t.weight else 0

def activeWeights (tasks : TaskTable) : Nat := ((List.finRange maxTasks).map fun i => (tasks i).activeWeight).sum

/-- In state `s` no operation of the policy wraps or divides by zero, for any task it is applied to. -/
structure ExactArithmetic (s : Scheduler) : Prop where
  vslice : ∀ i, 0 < (s.tasks i).weight ∧ (s.tasks i).requestedSliceTicks * 65536 < 2 ^ 64 ∧
    calcVslice (s.tasks i) = (s.tasks i).requestedSliceTicks * 65536 / (s.tasks i).weight
  /-- `calc_deadline`, also of a task just lifted to `V_sys`. -/
  deadline : ∀ i, max (s.tasks i).vruntime s.vsys + calcVslice (s.tasks i) < 2 ^ 64 ∧
    calcDeadline (s.tasks i) = (s.tasks i).vruntime + (s.tasks i).requestedSliceTicks * 65536 / (s.tasks i).weight
  weightSum : activeWeights s.tasks < 2 ^ 32 ∧ 0 < activeWeightSum s.tasks ∧
    activeWeightSum s.tasks = if 0 < activeWeights s.tasks then activeWeights s.tasks else eevdfBaseWeight
  charge : ∀ i, (s.tasks i).totalTicksRun + 1 < 2 ^ 64 ∧ (s.tasks i).vruntime + 65536 / (s.tasks i).weight < 2 ^ 64 ∧
    s.vsys + 65536 / activeWeightSum s.tasks < 2 ^ 64
  lag : ∀ i, eevdfGetLag s.vsys (s.tasks i) = (s.vsys : Int) - (s.tasks i).vruntime

/-! ## The weight sum -/

section
variable {tasks : TaskTable}

/-- The body of the loop in `get_active_weight_sum`. -/
def weightVisit (tasks : TaskTable) (total : Nat) (slot : Slot) : Nat :=
  match scanSlot tasks slot with
  | none => total
  | some i =>
    if (tasks i).state = .ready ∨ (tasks i).state = .running then (total + (tasks i).effectiveWeight) % 2 ^ 32 else total

theorem activeWeightSum_visit (tasks : TaskTable) : activeWeightSum tasks =
    if 0 < (List.finRange maxTasks).foldl (weightVisit tasks) 0 then (List.finRange maxTasks).foldl (weightVisit tasks) 0
    else eevdfBaseWeight := rfl

theorem weightVisit_eq {i : Slot} (h : (tasks i).Settings) {total : Nat} (hfit : total + 10240 < 2 ^ 32) :
    weightVisit tasks total i = total + (tasks i).activeWeight := by
  have hw := h.weight_le
  have hmod : (total + (tasks i).weight) % 2 ^ 32 = total + (tasks i).weight := Nat.mod_eq_of_lt (by omega)
  unfold weightVisit Task.activeWeight
  rw [scanSlot_eq]
  by_cases hs : (tasks i).Scanned
  · by_cases hstate : (tasks i).state = .ready ∨ (tasks i).state = .running
    · simp only [hs, hstate, ↓reduceIte, and_self, h.effectiveWeight, hmod]
    · simp only [hs, hstate, ↓reduceIte, and_false, Nat.add_zero]
  · simp only [hs, ↓reduceIte, false_and, Nat.add_zero]

theorem Task.Settings.activeWeight_le {t : Task} (h : t.Settings) : t.activeWeight ≤ 10240 := by
  unfold Task.activeWeight
  split
  · exact h.weight_le
  · exact Nat.zero_le _

theorem weightVisit_foldl (h : ∀ i, (tasks i).Settings) (l : List Slot) (total : Nat)
    (hfit : total + l.length * 10240 < 2 ^ 32) :
    l.foldl (weightVisit tasks) total = total + (l.map fun i => (tasks i).activeWeight).sum := by
  induction l generalizing total with
  | nil => simp
  | cons i l ih =>
    have hw := (h i).activeWeight_le
    rw [List.length_cons] at hfit
    have hfirst : total + 10240 < 2 ^ 32 := by omega
    have hrest : total + (tasks i).activeWeight + l.length * 10240 < 2 ^ 32 := by omega
    rw [List.foldl_cons, weightVisit_eq (h i) hfirst, ih _ hrest, List.map_cons, List.sum_cons, Nat.add_assoc]

theorem activeWeights_lt (h : ∀ i, (tasks i).Settings) : activeWeights tasks < 2 ^ 32 := by
  have hsum : ∀ l : List Slot, (l.map fun i => (tasks i).activeWeight).sum ≤ l.length * 10240 := by
    intro l
    induction l with
    | nil => simp
    | cons i l ih =>
      have hw := (h i).activeWeight_le
      simp only [List.map_cons, List.sum_cons, List.length_cons]
      omega
  have hall := hsum (List.finRange maxTasks)
  rw [List.length_finRange] at hall
  exact Nat.lt_of_le_of_lt hall (by decide)

/-- The 32-bit sum is the sum. -/
theorem activeWeightSum_eq (h : ∀ i, (tasks i).Settings) : activeWeightSum tasks =
    if 0 < activeWeights tasks then activeWeights tasks else eevdfBaseWeight := by
  have hfold := weightVisit_foldl h (List.finRange maxTasks) 0 (by rw [List.length_finRange]; decide)
  rw [Nat.zero_add] at hfold
  rw [activeWeightSum_visit, hfold]
  rfl

end

/-! ## Exactness -/

/-- Where all times are within `v`, everything is exact. -/
theorem ClockBound.exactArithmetic {v : Nat} {s : Scheduler} (h : ClockBound v s) (hv : v ≤ 2 ^ 62 + 2 ^ 16)
    (hticks : ∀ i, (s.tasks i).totalTicksRun + 1 < 2 ^ 64) : ExactArithmetic s := by
  have hsettings : ∀ i, (s.tasks i).Settings := fun i => (h.tasks i).settings
  have hlimit : v ≤ clockLimit := by
    have : 2 ^ 62 + 2 ^ 16 ≤ clockLimit := by decide
    omega
  have hvsys := h.vsys
  refine ⟨fun i => ⟨(hsettings i).weight_pos, ?_, ?_⟩, fun i => ⟨?_, ?_⟩, ⟨activeWeights_lt hsettings, activeWeightSum_pos _,
    activeWeightSum_eq hsettings⟩, fun i => ⟨hticks i, ?_, ?_⟩, fun i => ?_⟩
  · have := (hsettings i).slice_lt
    omega
  · exact (hsettings i).calcVslice
  · have h1 := (h.tasks i).vruntime
    have h2 := (hsettings i).vslice_lt
    rw [(hsettings i).calcVslice]
    omega
  · exact ((h.tasks i).inRange hlimit).calcDeadline
  · have h1 := (h.tasks i).vruntime
    have h2 := (s.tasks i).rate_le
    simp only [Task.rate, eevdfScale] at h2
    omega
  · have h2 := s.rate_le
    simp only [Scheduler.rate, eevdfScale] at h2
    omega
  · have h1 := (h.tasks i).vruntime
    have htoInt : ∀ n ≤ 2 ^ 62 + 2 ^ 16, (BitVec.ofNat 64 n).toInt = n := by
      intro n hn
      have hmod : (BitVec.ofNat 64 n).toNat = n := by
        rw [BitVec.toNat_ofNat]
        omega
      rw [BitVec.toInt_eq_toNat_of_lt (by omega), hmod]
    rw [eevdfGetLag, BitVec.toInt_sub, htoInt _ (by omega), htoInt _ (by omega)]
    exact Int.bmod_eq_of_le (by omega) (by omega)

/-! ## Ticks -/

/-- No task has run for more than `n` ticks. -/
def TicksBound (n : Nat) (s : Scheduler) : Prop := ∀ i, (s.tasks i).totalTicksRun ≤ n

section
variable {v n m : Nat} {s : Scheduler}

theorem Task.charged_ticks (t : Task) : t.charged.totalTicksRun ≤ t.totalTicksRun + 1 := Nat.mod_le _ _

theorem TicksBound.setTask (h : TicksBound n s) {i : Slot} {t : Task} (ht : t.totalTicksRun ≤ n) : TicksBound n (s.setTask i t) :=
  every_update (P := fun t => t.totalTicksRun ≤ n) h ht

theorem TicksBound.wakeSleepers (h : TicksBound n s) (hs : ClockBound v s) (hv : v ≤ clockLimit) (now : Nat) :
    TicksBound n (wakeSleepers s now) := by
  intro i
  rw [hs.wake_tasks hv]
  split
  · exact h i
  · exact h i

theorem TicksBound.prepared (h : TicksBound n s) (hs : ClockBound v s) (hv : v + 65536 ≤ clockLimit) (hnm : n ≤ m) {now : Nat}
    (hcharge : ∀ c, s.current = some c → (s.tasks c).state = .running → n + 1 ≤ m) (frame : TrapFrame) :
    TicksBound m (prepared s now frame) := by
  have hwoken := h.wakeSleepers hs (by omega) now
  intro i
  have hi := hwoken i
  rcases running_or_not s with ⟨c, hc, hrun⟩ | hno
  · obtain ⟨-, hpc, hothers⟩ := hs.prepared_running hv now frame hc hrun
    by_cases hic : i = c
    · have hticks := (s.tasks c).charged_ticks
      have hbound := h c
      have hm := hcharge c hc hrun
      rw [hic, hpc]
      simp only [Task.lifted]
      omega
    · rw [hothers i hic]
      omega
  · rw [prepared_of_not_running s now frame hno]
    omega

theorem TicksBound.selectNext (h : TicksBound n s) (hs : ClockBound v s) (hv : v ≤ clockLimit)
    (hcur : ∀ c, s.current = some c → (s.tasks c).state ≠ .running) (frame : TrapFrame) (pre : Bool) :
    TicksBound n (selectNext s frame pre).sched := by
  by_cases hready : ∃ i, s.Ready i
  · obtain ⟨i, hi⟩ := hready
    obtain ⟨j, -, hsel⟩ := selectNext_selects hs.policy (fun i _ => (hs.tasks i).inRange hv) hi frame pre
    intro i
    by_cases hij : i = j
    · rw [hij, hsel.task]
      exact h j
    · rw [hsel.others i hij]
      split
      · exact h i
      · exact h i
  · rcases selectNext_idle hs.policy (fun i hi => hready ⟨i, hi⟩) hcur frame pre with heq | ⟨c, -, heq⟩
    · rw [heq]; exact h
    · rw [heq]; exact h.setTask (h c)

end

/-! ## Runs -/

/-- All clocks after `n` charged ticks. -/
structure VirtualTime (n : Nat) (s : Scheduler) : Prop where
  clock : ClockBound (65536 * n) s
  ticks : TicksBound n s

section
variable {n m : Nat} {s : Scheduler}

theorem VirtualTime.exactArithmetic (h : VirtualTime n s) (hn : n ≤ 2 ^ 46) : ExactArithmetic s := by
  refine h.clock.exactArithmetic (by omega) fun i => ?_
  have := h.ticks i
  omega

theorem VirtualTime.mono (h : VirtualTime n s) (hnm : n ≤ m) : VirtualTime m s :=
  ⟨h.clock.mono (by omega), fun i => Nat.le_trans (h.ticks i) hnm⟩

/-- `2^46 + 1` charged ticks stay below the limit. -/
theorem clockLimit_ticks (hn : n ≤ 2 ^ 46) : 65536 * n + 65536 ≤ clockLimit := by
  have : 65536 * 2 ^ 46 + 65536 ≤ clockLimit := by decide
  omega

theorem VirtualTime.wakeSleepers (h : VirtualTime n s) (hn : n ≤ 2 ^ 46) (now : Nat) : VirtualTime n (wakeSleepers s now) := by
  have hlimit := clockLimit_ticks hn
  exact ⟨h.clock.wakeSleepers (by omega) now, h.ticks.wakeSleepers h.clock (by omega) now⟩

theorem VirtualTime.chargeWithin (h : VirtualTime n s) (hm : n + 1 ≤ m) (now : Nat) : ChargeWithin s now (65536 * m) := by
  intro c _ _
  have h1 := (h.clock.tasks c).vruntime
  have h2 := (s.tasks c).rate_le
  have h3 := h.clock.vsys
  have h4 := (Lettuce.wakeSleepers s now).rate_le
  omega

theorem VirtualTime.onTick (h : VirtualTime n s) (hn : n ≤ 2 ^ 46) (now : Nat) {c : Slot} (hc : s.current = some c)
    (hrun : (s.tasks c).state = .running) :
    VirtualTime (n + 1) (onTick (Lettuce.wakeSleepers s now) c 1) ∧
      s.vsys ≤ (onTick (Lettuce.wakeSleepers s now) c 1).vsys := by
  have hlimit := clockLimit_ticks hn
  have hwoken := h.wakeSleepers hn now
  obtain ⟨-, hvsys, htask, hothers⟩ := h.clock.onTick_running (by omega) now hc hrun
  refine ⟨⟨h.clock.charge (by omega) (by omega) (h.chargeWithin (Nat.le_refl _) now) hc hrun, fun i => ?_⟩, ?_⟩
  · by_cases hic : i = c
    · have h1 := (s.tasks c).charged_ticks
      have h2 := h.ticks c
      rw [hic, htask]
      omega
    · rw [hothers i hic]
      exact Nat.le_succ_of_le (hwoken.ticks i)
  · rw [hvsys]
    exact Nat.le_add_right _ _

theorem VirtualTime.prepared (h : VirtualTime n s) (hn : n ≤ 2 ^ 46) (hnm : n ≤ m) (hm : m ≤ n + 1) (now : Nat)
    (hcharge : ∀ c, s.current = some c → (s.tasks c).state = .running → n + 1 ≤ m) (frame : TrapFrame) :
    VirtualTime m (prepared s now frame) := by
  have hlimit := clockLimit_ticks hn
  refine ⟨h.clock.prepared (by omega) (by omega) ?_ frame, h.ticks.prepared h.clock hlimit hnm hcharge frame⟩
  intro c hc hrun
  exact h.chargeWithin (hcharge c hc hrun) now c hc hrun

theorem charges_eq_true {k : ScheduleCall} : k.charges = true ↔ k.sched.active = true ∧ k.frame.isSome ∧
    ∃ c, k.sched.current = some c ∧ (k.sched.tasks c).state = .running := by
  unfold ScheduleCall.charges
  cases k.sched.current with
  | none => simp
  | some c => simp [and_assoc]

/-- One call of `do_schedule`, and the states in which it computes. -/
theorem VirtualTime.call {k : ScheduleCall} (h : VirtualTime n k.sched) (hn : n ≤ 2 ^ 46) (hm : m = n + if k.charges then 1 else 0) :
    VirtualTime m k.result ∧ k.sched.vsys ≤ k.result.vsys ∧ ∀ w ∈ k.workingStates, VirtualTime m w := by
  have hlimit := clockLimit_ticks hn
  have hnm : n ≤ m := by omega
  have hm1 : m ≤ n + 1 := by split at hm <;> omega
  have hcharge : k.sched.active = true → k.frame.isSome →
      ∀ c, k.sched.current = some c → (k.sched.tasks c).state = .running → n + 1 ≤ m := by
    intro ha hf c hc hrun
    rw [if_pos (charges_eq_true.2 ⟨ha, hf, c, hc, hrun⟩)] at hm
    omega
  have hworking : ∀ w ∈ k.workingStates, VirtualTime m w := by
    intro w hw
    unfold ScheduleCall.workingStates at hw
    split at hw
    · cases hw
    · rename_i frame hframe
      split at hw
      · rename_i ha
        simp only [List.mem_cons, List.not_mem_nil, or_false] at hw
        rcases hw with rfl | rfl
        · exact (h.wakeSleepers hn k.now).mono hnm
        · exact h.prepared hn hnm hm1 k.now (hcharge ha (by rw [hframe]; rfl)) frame
      · cases hw
  unfold ScheduleCall.result
  rcases doSchedule_decision k.sched k.now k.frame k.isPreemption with ⟨-, heq, -⟩ |
    ⟨c, frame, -, ha, hframe, hc, hrun, -, -, heq⟩ | ⟨frame, -, ha, hframe, heq⟩
  · rw [heq]
    exact ⟨h.mono hnm, Nat.le_refl _, hworking⟩
  · obtain ⟨htick, hmono⟩ := h.onTick hn k.now hc hrun
    have hm' := hcharge ha (by rw [hframe]; rfl) c hc hrun
    rw [heq]
    exact ⟨htick.mono hm', hmono, hworking⟩
  · have hprep := h.prepared hn hnm hm1 k.now (hcharge ha (by rw [hframe]; rfl)) frame
    have hcur : ∀ c, (Lettuce.prepared k.sched k.now frame).current = some c →
        ((Lettuce.prepared k.sched k.now frame).tasks c).state ≠ .running := by
      intro c hc
      rw [(prepared_mech k.sched k.now frame).1] at hc
      exact prepared_current_ne_running k.sched k.now frame hc
    obtain ⟨hclock, hmono⟩ := hprep.clock.selectNext (by omega) hcur frame k.isPreemption
    rw [heq]
    refine ⟨⟨hclock, hprep.ticks.selectNext hprep.clock (by omega) hcur frame k.isPreemption⟩, ?_, hworking⟩
    exact Nat.le_trans (prepared_vsys_le h.clock hlimit k.now frame) hmono

/-- `yield` and `sleep_current` leave the clocks alone before they schedule. -/
theorem VirtualTime.called {e : SchedEvent} {k : ScheduleCall} (h : VirtualTime n s) (hk : scheduleCall s e = some k) :
    VirtualTime n k.sched ∧ k.sched.vsys = s.vsys := by
  have hset : ∀ c t, t.Bounded (65536 * n) → t.totalTicksRun ≤ n → VirtualTime n (s.setTask c t) :=
    fun c t hb ht => ⟨h.clock.setTask hb, h.ticks.setTask ht⟩
  rcases scheduleCall_sched hk with heq | ⟨c, -, heq | ⟨now, ticks, heq⟩⟩
  · rw [heq]
    exact ⟨h, rfl⟩
  · rw [heq]
    exact ⟨hset c _ ((h.clock.tasks c).congr rfl rfl rfl rfl) (h.ticks c), rfl⟩
  · rw [heq]
    exact ⟨hset c _ ((h.clock.tasks c).congr rfl rfl rfl rfl) (h.ticks c), rfl⟩

theorem VirtualTime.step {e : SchedEvent} (h : VirtualTime n s) (he : EevdfCall s e) (hn : n ≤ 2 ^ 46)
    (hm : m = ((scheduleCall s e).filter ScheduleCall.charges).toList.length + n) :
    VirtualTime m (schedStep s e) ∧ s.vsys ≤ (schedStep s e).vsys ∧ ∀ w ∈ workingStates s e, VirtualTime m w := by
  unfold workingStates
  rcases schedStep_edit he with ⟨k, hk, hstep⟩ | ⟨hk, hpolicy, hvsys, hedit⟩
  · obtain ⟨hcall, hv⟩ := h.called hk
    have hm' : m = n + if k.charges then 1 else 0 := by
      rw [hm, hk, Option.filter_some]
      split <;> simp [Nat.add_comm]
    obtain ⟨hresult, hmono, hworking⟩ := hcall.call hn hm'
    rw [hstep, hk, ← hv]
    exact ⟨hresult, hmono, hworking⟩
  · have hm' : m = n := by rw [hm, hk]; simp
    rw [hk, hm', hvsys]
    refine ⟨⟨⟨hpolicy.trans h.clock.policy, fun i => ?_, by rw [hvsys]; exact h.clock.vsys⟩, fun i => ?_⟩, Nat.le_refl _, ?_⟩
    · exact (hedit i).bounded (h.clock.tasks i)
    · exact Nat.le_trans (hedit i).ticks (h.ticks i)
    · simp

end

theorem eevdfStart_virtualTime (s₀ : Scheduler) : VirtualTime 0 (eevdfStart s₀) := by
  have htasks : (eevdfStart s₀).tasks = taskInit := schedulerInit_tasks s₀
  refine ⟨⟨rfl, fun i => ?_, Nat.zero_le _⟩, fun i => ?_⟩
  · rw [htasks]
    exact ⟨settings_default rfl rfl, Nat.zero_le _, (by decide : 0 < 65536 * 0 + 2 ^ 48)⟩
  · rw [htasks]
    exact Nat.le_refl _

/-- The history of `V_sys`, most recent value first. -/
def vsysHistory (h : SchedHistory) (s : Scheduler) : List Nat := s.vsys :: h.map fun p => p.1.vsys

/-- **Virtual time never overflows and never runs backwards**: with at most 2^46 charged ticks, times are
bounded by 65536 a tick (deadlines 2^48 above), every computation on the way was exact, and `V_sys` never fell. -/
theorem virtual_time_never_wraps (s₀ : Scheduler) {h : SchedHistory} {s : Scheduler}
    (r : Run EevdfCall schedStep (eevdfStart s₀) h s) (hn : chargedTicks h ≤ 2 ^ 46) :
    (∀ i, (s.tasks i).vruntime ≤ 65536 * chargedTicks h ∧ (s.tasks i).vdeadline < 65536 * chargedTicks h + 2 ^ 48) ∧
    s.vsys ≤ 65536 * chargedTicks h ∧ ExactArithmetic s ∧ (∀ p ∈ h, ∀ w ∈ workingStates p.1 p.2, ExactArithmetic w) ∧
    (vsysHistory h s).Pairwise fun later earlier => earlier ≤ later := by
  have hall : VirtualTime (chargedTicks h) s ∧ (∀ p ∈ h, ∀ w ∈ workingStates p.1 p.2, ExactArithmetic w) ∧
      (vsysHistory h s).Pairwise fun later earlier => earlier ≤ later := by
    induction r with
    | start => exact ⟨eevdfStart_virtualTime s₀, by simp, by simp [vsysHistory]⟩
    | @next h s r e he ih =>
      simp only [chargedTicks] at hn ⊢
      obtain ⟨hvt, hexact, hmono⟩ := ih (by omega)
      obtain ⟨hstep, hle, hworking⟩ := hvt.step he (by omega) rfl
      refine ⟨hstep, fun p hp w hw => ?_, ?_⟩
      · rcases List.mem_cons.1 hp with rfl | hp
        · exact (hworking w hw).exactArithmetic (by omega)
        · exact hexact p hp w hw
      · refine List.pairwise_cons.2 ⟨fun earlier hmem => ?_, hmono⟩
        rcases List.mem_cons.1 hmem with rfl | hmem
        · exact hle
        · exact Nat.le_trans ((List.pairwise_cons.1 hmono).1 earlier hmem) hle
  obtain ⟨hvt, hexact, hmono⟩ := hall
  exact ⟨fun i => ⟨(hvt.clock.tasks i).vruntime, (hvt.clock.tasks i).vdeadline⟩, hvt.clock.vsys, hvt.exactArithmetic hn, hexact, hmono⟩

/-- Two tasks, one of them lighter, over a few ticks. -/
def lightTaskCalls : List SchedEvent :=
  [.create 10 100 0x1000 0x2000, .create 20 200 0x3000 0x4000, .setWeight secondSlot 3, .start,
    .tick 0 (some (initialContext 0 0).restore), .tick 1 (some (initialContext 0 0).restore),
    .yield 2 (some (initialContext 0 0).restore), .tick 3 (some (initialContext 0 0).restore)]

theorem virtual_time_never_wraps_light :
    let t := traceFrom schedStep [] (eevdfStart schedulerBoot) lightTaskCalls
    chargedTicks t.1 = 3 ∧ 0 < t.2.vsys ∧ t.2.vsys ≤ 65536 * chargedTicks t.1 := by
  intro t
  have r : Run EevdfCall schedStep (eevdfStart schedulerBoot) t.1 t.2 :=
    Run.start.trace ⟨trivial, trivial, trivial, trivial, trivial, trivial, trivial, trivial, trivial⟩
  have hn : chargedTicks t.1 = 3 := by decide +kernel
  exact ⟨hn, by decide +kernel, (virtual_time_never_wraps schedulerBoot r (by rw [hn]; decide)).2.1⟩

end Lettuce
