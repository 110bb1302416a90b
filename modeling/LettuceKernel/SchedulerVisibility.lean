import LettuceKernel.Scheduler
/-!
# Which tasks the scheduler can see

Every scan of the task table guesses a slot's generation from 1 to 10, while
`lettuce_task_terminate` counts it up without that bound (task.c:124-126). A task created in
a slot that has been terminated ten times has generation 11: no scan finds it, it is never
woken, never picked and never charged.

`KeepsVisible` is the condition on a step that rules this out, together with the two other
ways a runnable task can be passed over: a `yield` or `sleep` with no current task returns
before the wake scan, and an EEVDF clock of exactly `UINT64_MAX` loses against the scan's
start value (`t->vruntime < min_vruntime`, eevdf.c:131). Under it `Visible` is an invariant.
-/

namespace Lettuce

open Runs

/-- Charging the running task brings neither its vruntime nor `V_sys` to `UINT64_MAX`. -/
def ChargeFits (s : Scheduler) (now : Nat) : Prop :=
  s.policy = .eevdf → ∀ c, s.current = some c → (s.tasks c).state = .running →
    ((s.tasks c).vruntime + eevdfScale / (s.tasks c).effectiveWeight) % 2 ^ 64 ≠ uint64Max ∧
    (s.vsys + eevdfScale / activeWeightSum (wakeSleepers s now).tasks) % 2 ^ 64 ≠ uint64Max

/-- The steps that keep every live task within reach of the scans: a task is created only in a
slot of generation at most 10, a task yields or sleeps only if there is one, no clock is
charged to the sentinel, and the harness adopts only a READY task when none is current. -/
def KeepsVisible (s : Scheduler) : SchedEvent → Prop
  | .create .. => ∀ i, freeTaskSlot s.tasks = some i → (s.tasks i).generation.toNat ≤ 10
  | .adopt task => s.current = none ∧ (s.tasks task).state = .ready
  | .tick now _ => ChargeFits s now.toNat
  | .yield now _ => s.current ≠ none ∧ ChargeFits s now.toNat
  | .sleep .. => s.current ≠ none
  | _ => True

/-! ## The virtual clocks -/

def Clocks (s : Scheduler) : Prop :=
  (∀ i, (s.tasks i).vruntime < uint64Max) ∧ (s.policy = .eevdf → s.vsys < uint64Max)

theorem onTaskReady_vruntime {policy : Policy} {vsys : Nat} {t : Task} (ht : t.vruntime < uint64Max)
    (hv : policy = .eevdf → vsys < uint64Max) : (onTaskReady policy vsys t).vruntime < uint64Max := by
  unfold onTaskReady eevdfOnTaskReady
  split
  · exact ht
  · rw [align_vruntime]; have := hv rfl; omega

theorem onTaskWake_vruntime {policy : Policy} {vsys : Nat} {t : Task} (ht : t.vruntime < uint64Max)
    (hv : policy = .eevdf → vsys < uint64Max) : (onTaskWake policy vsys t).vruntime < uint64Max := by
  unfold onTaskWake eevdfOnTaskWake
  split
  · exact ht
  · rw [align_vruntime]; have := hv rfl; omega

theorem Clocks.setTask {s : Scheduler} (h : Clocks s) {i : Slot} {t : Task} (ht : t.vruntime < uint64Max) :
    Clocks (s.setTask i t) :=
  ⟨every_update (P := fun t => t.vruntime < uint64Max) h.1 ht, h.2⟩

theorem Clocks.wakeSleepers {s : Scheduler} (h : Clocks s) (now : Nat) : Clocks (wakeSleepers s now) := by
  refine ⟨fun i => ?_, by simpa using h.2⟩
  rw [wakeSleepers_tasks]
  split
  · unfold Task.wake
    split
    · exact onTaskWake_vruntime (t := { s.tasks i with state := .ready }) (h.1 i) h.2
    · exact h.1 i
  · exact h.1 i

theorem mod_lt_max {n : Nat} (h : n % 2 ^ 64 ≠ uint64Max) : n % 2 ^ 64 < uint64Max := by
  have := Nat.mod_lt n (show 0 < 2 ^ 64 by decide)
  simp only [uint64Max] at *
  omega

theorem Clocks.onTick {s : Scheduler} (h : Clocks s) {c : Slot}
    (hfit : s.policy = .eevdf → (s.tasks c).state = .running →
      ((s.tasks c).vruntime + eevdfScale / (s.tasks c).effectiveWeight) % 2 ^ 64 ≠ uint64Max ∧
      (s.vsys + eevdfScale / activeWeightSum s.tasks) % 2 ^ 64 ≠ uint64Max) : Clocks (onTick s c 1) := by
  unfold Lettuce.onTick
  split
  · unfold rrOnTick
    split
    · exact h.setTask (h.1 c)
    · exact h
  · rename_i hp
    unfold eevdfOnTick
    dsimp only
    split
    · rename_i hrun
      obtain ⟨h1, h2⟩ := hfit hp hrun
      have hscale : 1 * eevdfScale % 2 ^ 64 = eevdfScale := by decide
      rw [hscale]
      exact ⟨(h.setTask (mod_lt_max h1)).1, fun _ => mod_lt_max h2⟩
    · exact h

theorem Clocks.requeue {s : Scheduler} (h : Clocks s) (c : Slot) (frame : TrapFrame) : Clocks (requeue s c frame) :=
  h.setTask (onTaskReady_vruntime (t := { s.tasks c with context := frame.save, state := .ready }) (h.1 c) h.2)

theorem Clocks.eevdfChoose {s : Scheduler} (h : Clocks s) {a : EevdfScan} (ha : a.Good s) (curr : Option Slot) :
    Clocks (eevdfChoose s a curr).1 := by
  have hbase : Clocks { s with tasks := a.tasks } := ⟨fun i => by rw [ha.vruntime]; exact h.1 i, h.2⟩
  unfold Lettuce.eevdfChoose
  dsimp only
  split
  · exact hbase.setTask (hbase.1 _)
  · split
    · rename_i i hmin
      split at hmin
      · have hv := (ha.minTask i hmin).2
        refine ⟨(hbase.setTask (t := (a.tasks i).renew) (hbase.1 i)).1, fun _ => ?_⟩
        simp only [hv]
        exact h.1 i
      · cases hmin
    · split
      · exact hbase
      · split
        · exact hbase.setTask (hbase.1 _)
        · exact hbase

theorem Clocks.pickNext {s : Scheduler} (h : Clocks s) (curr : Option Slot) : Clocks (pickNext s curr).1 := by
  unfold Lettuce.pickNext
  split
  · unfold rrPickNext
    dsimp only
    split
    · rename_i t _
      exact h.setTask (i := t) (t := { s.tasks t with timeSliceTicks := (s.tasks t).quantumTicks }) (h.1 t)
    · split
      · exact h
      · split
        · exact h.setTask (h.1 _)
        · exact h
  · exact h.eevdfChoose (eevdfScan_good s) curr

theorem Clocks.selectNext {s : Scheduler} (h : Clocks s) (frame : TrapFrame) (pre : Bool) :
    Clocks (selectNext s frame pre).sched := by
  have hp := h.pickNext s.current
  unfold Lettuce.selectNext
  dsimp only
  split
  · split
    · exact hp
    · split
      · exact hp.setTask (hp.1 _)
      · exact hp
  · rename_i j _
    split
    · exact hp.setTask (hp.1 _)
    · exact hp.setTask (i := j) (t := { (Lettuce.pickNext s s.current).1.tasks j with state := .running }) (hp.1 j)

theorem Clocks.doSchedule {s : Scheduler} (h : Clocks s) {now : Nat} (hfit : ChargeFits s now)
    (trapFrame : Option TrapFrame) (pre : Bool) : Clocks (doSchedule s now trapFrame pre).sched := by
  cases trapFrame with
  | none => exact h
  | some frame =>
    cases ha : s.active with
    | false => simpa [Lettuce.doSchedule, ha] using h
    | true =>
      have hw := h.wakeSleepers now
      -- the charged task is the running one, which the wake scan did not touch
      have htick : ∀ c, s.current = some c → (s.tasks c).state = .running →
          Clocks (Lettuce.onTick (Lettuce.wakeSleepers s now) c 1) := by
        intro c hc hrun
        refine hw.onTick fun hpol _ => ?_
        rw [wakeSleepers_of_running hrun, wakeSleepers_vsys]
        exact hfit (by simpa using hpol) c hc hrun
      rcases doSchedule_cases ha now frame pre with ⟨c, hc, hrun, -, -, heq⟩ | ⟨-, heq⟩
      · rw [heq]; exact htick c hc hrun
      · rw [heq]
        apply Clocks.selectNext
        rcases running_or_not s with ⟨c, hc, hrun⟩ | hno
        · rw [prepared_of_running s now frame hc hrun]
          exact (htick c hc hrun).requeue c frame
        · rw [prepared_of_not_running s now frame hno]
          exact hw

/-! ## The invariant -/

/-- Every live task has a generation the scans try, and no clock holds the sentinel. -/
structure Visible (s : Scheduler) : Prop where
  generation : ∀ i, (s.tasks i).Live → 1 ≤ (s.tasks i).generation.toNat ∧ (s.tasks i).generation.toNat ≤ 10
  current : ∀ c, s.current = some c → (s.tasks c).Live
  clocks : Clocks s

theorem Visible.scanned {s : Scheduler} (h : Visible s) {i : Slot} (hl : (s.tasks i).Live) : (s.tasks i).Scanned :=
  ⟨(h.generation i hl).1, (h.generation i hl).2, hl.1⟩

theorem Visible.init (s : Scheduler) : Visible (schedulerInit s) := by
  refine ⟨fun i hl => ?_, fun c hc => ?_, fun i => ?_, fun hp => ?_⟩
  · rw [schedulerInit_tasks] at hl; exact absurd rfl hl.1
  · rw [schedulerInit_current] at hc; cases hc
  · rw [schedulerInit_tasks]
    exact (by decide : 0 < uint64Max)
  · unfold schedulerInit policyInit at hp ⊢
    dsimp only at hp ⊢
    split
    · rename_i hrr; simp [hrr] at hp
    · exact (by decide : 0 < uint64Max)

theorem Visible.doSchedule {s : Scheduler} (h : Visible s) {now : Nat} (hfit : ChargeFits s now)
    (trapFrame : Option TrapFrame) (pre : Bool) : Visible (doSchedule s now trapFrame pre).sched := by
  have hmove := doSchedule_move s now trapFrame pre
  refine ⟨fun i hl => ?_, doSchedule_current_live h.current now trapFrame pre,
    h.clocks.doSchedule hfit trapFrame pre⟩
  rw [ident_generation (hmove i).ident]
  exact h.generation i ((hmove i).live.1 hl)

/-- Rewriting a live task within its identity, to a live state. -/
theorem Visible.setTask {s : Scheduler} (h : Visible s) {i : Slot} {t : Task} (hg : t.generation = (s.tasks i).generation)
    (hv : t.vruntime = (s.tasks i).vruntime) (hl : t.Live ↔ (s.tasks i).Live) : Visible (s.setTask i t) := by
  refine ⟨fun j hj => ?_, fun c hc => ?_, h.clocks.setTask (by rw [hv]; exact h.clocks.1 i)⟩
  · by_cases hji : j = i
    · subst hji
      simp only [Scheduler.setTask, Function.update_self] at hj ⊢
      rw [hg]
      exact h.generation j (hl.1 hj)
    · simp only [Scheduler.setTask, Function.update_of_ne hji] at hj ⊢
      exact h.generation j hj
  · have hlive := h.current c hc
    by_cases hci : c = i
    · subst hci
      simp only [Scheduler.setTask, Function.update_self]
      exact hl.2 hlive
    · simpa only [Scheduler.setTask, Function.update_of_ne hci] using hlive

theorem Visible.create {s : Scheduler} (h : Visible s) (serviceId : ServiceId) (domainId : DomainId)
    (entryPc stackTop : Reg) (hgen : ∀ i, freeTaskSlot s.tasks = some i → (s.tasks i).generation.toNat ≤ 10) :
    Visible { s with tasks := (taskCreate s.tasks serviceId domainId entryPc stackTop).1 } := by
  unfold taskCreate
  split
  · exact h
  · rename_i i hi
    have hfree := freeTaskSlot_eq_some hi
    refine ⟨fun j hj => ?_, fun c hc => ?_, fun j => ?_, h.clocks.2⟩
    · by_cases hji : j = i
      · subst hji
        simp only [Function.update_self]
        have hle := hgen j hi
        split
        · decide
        · rename_i h0
          have : (s.tasks j).generation.toNat ≠ 0 := fun hz => h0 (BitVec.eq_of_toNat_eq (by simpa using hz))
          omega
      · simp only [Function.update_of_ne hji] at hj ⊢
        exact h.generation j hj
    · -- the current task is live, so its slot was not free
      have hlive := h.current c hc
      have hci : c ≠ i := by
        rintro rfl
        rcases hfree with hf | hf
        · exact hlive.1 hf
        · exact hlive.2 hf
      simpa only [Function.update_of_ne hci] using hlive
    · by_cases hji : j = i
      · subst hji
        simp only [Function.update_self]
        decide
      · simp only [Function.update_of_ne hji]
        exact h.clocks.1 j

theorem Visible.terminate {s : Scheduler} (h : Visible s) (id : TaskId) : Visible (terminate s id) := by
  rcases terminate_cases s id with heq | ⟨i, -, heq⟩
  · rw [heq]; exact h
  · rw [heq]
    refine ⟨fun j hj => ?_, fun c hc => ?_, fun j => ?_, h.clocks.2⟩
    · by_cases hji : j = i
      · subst hji
        simp only [Function.update_self] at hj
        exact absurd rfl hj.2
      · simp only [Function.update_of_ne hji] at hj ⊢
        exact h.generation j hj
    · dsimp only at hc
      split at hc
      · cases hc
      · rename_i hne
        have hci : c ≠ i := by rintro rfl; exact hne hc
        simp only [Function.update_of_ne hci]
        exact h.current c hc
    · by_cases hji : j = i
      · subst hji; simp only [Function.update_self]; exact h.clocks.1 j
      · simp only [Function.update_of_ne hji]; exact h.clocks.1 j

theorem Visible.adopt {s : Scheduler} (h : Visible s) {i : Slot} (hr : (s.tasks i).state = .ready) :
    Visible (adopt s i) := by
  have hlive : (s.tasks i).Live := live_of_state hr (by decide)
  have hset : Visible (s.setTask i { s.tasks i with state := .running }) :=
    h.setTask rfl rfl (iff_of_true ⟨by simp, by simp⟩ hlive)
  refine ⟨hset.generation, fun c hc => ?_, hset.clocks⟩
  cases hc
  simp only [Lettuce.adopt, Scheduler.setTask, Function.update_self]
  exact ⟨by simp, by simp⟩

theorem chargeFits_of_not_running {s : Scheduler} {now : Nat}
    (h : ∀ c, s.current = some c → (s.tasks c).state ≠ .running) : ChargeFits s now :=
  fun _ c hc hr => absurd hr (h c hc)

theorem Visible.setPolicy {s : Scheduler} (h : Visible s) (policy : Policy) : Visible (setPolicy s policy) := by
  cases policy with
  | rr => exact ⟨h.generation, h.current, h.clocks.1, nofun⟩
  | eevdf => exact ⟨h.generation, h.current, h.clocks.1, fun _ => (by decide : 0 < uint64Max)⟩

theorem wakeSleepers_kept_congr {s s' : Scheduler} (h : ∀ i, (s'.tasks i).kept = (s.tasks i).kept) (now : Nat)
    (i : Slot) : ((wakeSleepers s' now).tasks i).kept = ((wakeSleepers s now).tasks i).kept := by
  rw [wakeSleepers_tasks, wakeSleepers_tasks]
  by_cases hs : (s.tasks i).Scanned
  · rw [if_pos hs, if_pos ((scanned_congr (h i)).2 hs)]
    have hdue : ((s'.tasks i).state = .sleeping ∧ (s'.tasks i).sleepDeadlineTicks ≤ now) ↔
        ((s.tasks i).state = .sleeping ∧ (s.tasks i).sleepDeadlineTicks ≤ now) := by
      rw [kept_state (h i), kept_sleepDeadlineTicks (h i)]
    by_cases hd : (s.tasks i).state = .sleeping ∧ (s.tasks i).sleepDeadlineTicks ≤ now
    · rw [Task.wake_of_due hd.1 hd.2, Task.wake_of_due (hdue.2 hd).1 (hdue.2 hd).2, onTaskWake_kept, onTaskWake_kept]
      exact congrArg (fun t : Task => { t with state := .ready }) (h i)
    · rw [Task.wake_of_not_due hd, Task.wake_of_not_due (fun hd' => hd (hdue.1 hd'))]
      exact h i
  · rw [if_neg hs, if_neg (fun hs' => hs ((scanned_congr (h i)).1 hs'))]
    exact h i

/-- The active weight depends on nothing a policy writes. -/
theorem activeWeightSum_congr {tasks tasks' : TaskTable} (h : ∀ i, (tasks' i).kept = (tasks i).kept) :
    activeWeightSum tasks' = activeWeightSum tasks := by
  have hscan : scanSlot tasks' = scanSlot tasks := by
    funext i
    rw [scanSlot_eq, scanSlot_eq]
    by_cases hs : (tasks i).Scanned
    · rw [if_pos hs, if_pos ((scanned_congr (h i)).2 hs)]
    · rw [if_neg hs, if_neg (fun hs' => hs ((scanned_congr (h i)).1 hs'))]
  have hweight : ∀ i, (tasks' i).effectiveWeight = (tasks i).effectiveWeight := fun i => by
    simp only [Task.effectiveWeight, kept_weight (h i)]
  have hstate : ∀ i, (tasks' i).state = (tasks i).state := fun i => kept_state (h i)
  simp only [activeWeightSum, hscan, hweight, hstate]

/-- The charge looks at the variables, the vruntimes and what a policy keeps. -/
theorem ChargeFits.congr {s s' : Scheduler} {now : Nat} (hfit : ChargeFits s now) (hp : s'.policy = s.policy)
    (hc : s'.current = s.current) (hv : s'.vsys = s.vsys) (hk : ∀ i, (s'.tasks i).kept = (s.tasks i).kept)
    (hvr : ∀ i, (s'.tasks i).vruntime = (s.tasks i).vruntime) : ChargeFits s' now := by
  intro hpol c hcur hrun
  have h := hfit (hp ▸ hpol) c (hc ▸ hcur) (kept_state (hk c) ▸ hrun)
  rw [activeWeightSum_congr (wakeSleepers_kept_congr hk now), hv, hvr]
  simpa only [Task.effectiveWeight, kept_weight (hk c)] using h

/-- Before it schedules, `yield` only drops the slice. -/
theorem Visible.yield {s : Scheduler} (h : Visible s) {now : BitVec 64} (hfit : ChargeFits s now.toNat)
    (frame : Option TrapFrame) : Visible (schedulerYield s now frame).sched := by
  unfold schedulerYield
  split
  · exact h
  · rename_i c hc
    have hset : Visible (s.setTask c (s.tasks c).dropSlice) := h.setTask rfl rfl Iff.rfl
    refine hset.doSchedule ?_ frame false
    have hvr : ∀ i, ((s.setTask c (s.tasks c).dropSlice).tasks i).vruntime = (s.tasks i).vruntime := by
      intro i
      by_cases hi : i = c
      · subst hi; simp [Scheduler.setTask, Task.dropSlice]
      · simp [Scheduler.setTask, hi]
    exact hfit.congr rfl rfl rfl (update_kept (t := (s.tasks c).dropSlice) rfl) hvr

/-- `sleep_current` puts a live task to sleep; nothing is charged. -/
theorem Visible.sleep {s : Scheduler} (h : Visible s) (ticks now : BitVec 64) (frame : Option TrapFrame) :
    Visible (schedulerSleepCurrent s ticks now frame).sched := by
  unfold schedulerSleepCurrent
  split
  · exact h
  · rename_i c hc
    have hset : Visible (s.setTask c ((s.tasks c).sleepUntil now.toNat ticks.toNat)) :=
      h.setTask rfl rfl (iff_of_true ⟨nofun, nofun⟩ (h.current c hc))
    refine hset.doSchedule (chargeFits_of_not_running fun c' hc' => ?_) frame false
    have : c' = c := Option.some.inj (hc'.symm.trans hc)
    subst this
    simp [Scheduler.setTask, Task.sleepUntil]

theorem Visible.step {s : Scheduler} (h : Visible s) {e : SchedEvent} (hok : KeepsVisible s e) :
    Visible (schedStep s e) := by
  cases e with
  | init => exact Visible.init s
  | create serviceId domainId entryPc stackTop => exact h.create serviceId domainId entryPc stackTop hok
  | terminate id => exact h.terminate id
  | setWeight task weight => exact h.setTask rfl rfl Iff.rfl
  | setSlice task sliceTicks => exact h.setTask rfl rfl Iff.rfl
  | setPolicy policy => exact h.setPolicy policy
  | setPreemptLimit maxPreempts => exact ⟨h.generation, h.current, h.clocks⟩
  | start => exact ⟨h.generation, h.current, h.clocks⟩
  | stop => exact ⟨h.generation, h.current, h.clocks⟩
  | adopt task => exact h.adopt hok.2
  | tick now frame => exact h.doSchedule hok frame true
  | yield now frame => exact h.yield hok.2 frame
  | sleep ticks now frame => exact h.sleep ticks now frame

/-! ## No runnable task is passed over -/

theorem Visible.pickNext_isSome {s : Scheduler} (h : Visible s) {i : Slot} (hr : (s.tasks i).state = .ready)
    (curr : Option Slot) : (pickNext s curr).2.isSome := by
  have hlive : (s.tasks i).Live := live_of_state hr (by decide)
  exact Lettuce.pickNext_isSome ⟨h.scanned hlive, hr⟩ (fun _ => h.clocks.1 i) curr

/-- After an active `do_schedule` no live task is overdue. -/
theorem doSchedule_none_overdue {s : Scheduler} (h : Visible s) (ha : s.active = true) (now : Nat) (frame : TrapFrame)
    (pre : Bool) (i : Slot) (hs : ((doSchedule s now (some frame) pre).sched.tasks i).state = .sleeping) :
    now < ((doSchedule s now (some frame) pre).sched.tasks i).sleepDeadlineTicks := by
  have hmove := doSchedule_move_woken ha now frame pre i
  have hwoken := hmove.sleeping hs
  have hslept := (wakeSleepers_move s now i).sleeping hwoken
  have hlive : (s.tasks i).Live := live_of_state hslept (by decide)
  rw [wakeSleepers_tasks, if_pos (h.scanned hlive), Task.wake_state] at hwoken
  split at hwoken
  · cases hwoken
  · rename_i hdue
    rw [ident_sleepDeadlineTicks (doSchedule_move s now (some frame) pre i).ident]
    simp only [hslept, true_and] at hdue
    omega

/-- The scheduling call an event makes, when it gets as far as `do_schedule`. -/
theorem schedCall_doSchedule {s : Scheduler} {e : SchedEvent} {now : BitVec 64} {frame : TrapFrame}
    (he : e.scheduling = some (now, some frame)) (hv : Visible s) (hok : KeepsVisible s e) (ha : s.active = true) :
    ∃ s' pre, Visible s' ∧ s'.active = true ∧ schedCall s e = doSchedule s' now.toNat (some frame) pre := by
  cases e with
  | tick now' frame' =>
    cases he
    exact ⟨s, true, hv, ha, rfl⟩
  | yield now' frame' =>
    cases he
    obtain ⟨c, hc⟩ := Option.ne_none_iff_exists'.1 hok.1
    refine ⟨s.setTask c (s.tasks c).dropSlice, false, hv.setTask rfl rfl Iff.rfl, ha, ?_⟩
    simp only [schedCall, schedulerYield, hc]
  | sleep ticks now' frame' =>
    cases he
    obtain ⟨c, hc⟩ := Option.ne_none_iff_exists'.1 hok
    refine ⟨s.setTask c ((s.tasks c).sleepUntil now.toNat ticks.toNat), false,
      hv.setTask rfl rfl (iff_of_true ⟨nofun, nofun⟩ (hv.current c hc)), ha, ?_⟩
    simp only [schedCall, schedulerSleepCurrent, hc]
  | _ => cases he

/-- `pick_next` returns a task whenever one is READY, whatever the current task is, and if the
last event was a scheduling event at timer value `now` (active, with a frame), no task in the
table sleeps past its deadline. -/
def SeesRunnable (h : SchedHistory) (s : Scheduler) : Prop :=
  (∀ i curr, (s.tasks i).state = .ready → (pickNext s curr).2.isSome) ∧
    ∀ p ∈ h.head?, ∀ now frame, p.2.scheduling = some (now, some frame) → p.1.active = true →
      ∀ i, (s.tasks i).state = .sleeping → now.toNat < (s.tasks i).sleepDeadlineTicks

/-- **No runnable task is invisible to the scheduler** in any run whose steps all meet
`KeepsVisible`. -/
theorem no_runnable_task_invisible (s₀ : Scheduler) {h : SchedHistory} {s : Scheduler}
    (r : Run KeepsVisible schedStep (schedulerInit s₀) h s) : SeesRunnable h s := by
  have hkeep : ∀ s e, KeepsVisible s e → Visible s → Visible (schedStep s e) := fun _ _ hok h => h.step hok
  have hv : Visible s := r.invariant (Visible.init s₀) hkeep
  refine ⟨fun i curr hr => hv.pickNext_isSome hr curr, ?_⟩
  cases r with
  | start => nofun
  | next r e hok =>
    rintro p hp now frame he ha i hs
    cases hp
    obtain ⟨s', pre, hv', ha', hcall⟩ := schedCall_doSchedule he (r.invariant (Visible.init s₀) hkeep) hok ha
    simp only [schedStep, hcall] at hs ⊢
    exact doSchedule_none_overdue hv' ha' now.toNat frame pre i hs

/-- Of three tasks the first one sleeps until tick 12; the timer comes at 8. -/
def threeTaskCalls : List SchedEvent :=
  [.create 10 100 0x1000 0x2000, .create 20 200 0x1000 0x2000, .create 30 300 0x1000 0x2000, .start,
    .tick 7 (some (initialContext 0 0).restore), .sleep 5 7 (some (initialContext 0 0).restore),
    .tick 8 (some (initialContext 0 0).restore)]

theorem threeTaskCalls_keepsVisible : Admits KeepsVisible schedStep (schedulerInit schedulerBoot) threeTaskCalls := by
  have hcur : (traceFrom schedStep [] (schedulerInit schedulerBoot) (threeTaskCalls.take 5)).2.current = some firstSlot ∧
      (traceFrom schedStep [] (schedulerInit schedulerBoot) (threeTaskCalls.take 6)).2.current = some secondSlot := by
    decide +kernel
  have hgeneration : ∀ n < 3, ∀ i,
      ((traceFrom schedStep [] (schedulerInit schedulerBoot) (threeTaskCalls.take n)).2.tasks i).generation.toNat ≤ 10 := by
    decide +kernel
  refine ⟨fun i _ => hgeneration 0 (by decide) i, fun i _ => hgeneration 1 (by decide) i, fun i _ => hgeneration 2 (by decide) i,
    trivial, nofun, ?_, fun _ c hc _ => ?_, trivial⟩
  · show (traceFrom schedStep [] (schedulerInit schedulerBoot) (threeTaskCalls.take 5)).2.current ≠ none
    rw [hcur.1]
    exact nofun
  · obtain rfl : c = secondSlot := Option.some.inj (hc.symm.trans hcur.2)
    decide +kernel

/-- The last state has a sleeping task and a READY one. -/
theorem no_runnable_task_invisible_three :
    let t := traceFrom schedStep [] (schedulerInit schedulerBoot) threeTaskCalls
    ((t.2.tasks firstSlot).state = .sleeping ∧ 8 < (t.2.tasks firstSlot).sleepDeadlineTicks) ∧
      (t.2.tasks 2).state = .ready ∧ (pickNext t.2 t.2.current).2.isSome := by
  intro t
  have r : Run KeepsVisible schedStep (schedulerInit schedulerBoot) t.1 t.2 := Run.start.trace threeTaskCalls_keepsVisible
  have hstates : (t.2.tasks firstSlot).state = .sleeping ∧ (t.2.tasks 2).state = .ready := by decide +kernel
  obtain ⟨hpick, hawake⟩ := no_runnable_task_invisible schedulerBoot r
  refine ⟨⟨hstates.1, ?_⟩, hstates.2, hpick 2 t.2.current hstates.2⟩
  exact hawake _ rfl 8 (initialContext 0 0).restore rfl (by decide +kernel) firstSlot hstates.1

/-- Ten lives of one slot, and an eleventh task in it. -/
def tenRecycles : List SchedEvent :=
  (List.range 10).flatMap (fun g =>
    [.create 10 100 0x1000 0x2000, .terminate (makeTaskId (BitVec.ofNat 16 (g + 1)) firstSlot)]) ++
    [.create 10 100 0x1000 0x2000]

/-- The eleventh task is READY in slot 0 with generation 11 and `pick_next` finds nothing. -/
theorem recycled_slot_invisible :
    ¬ ∀ s₀ h s, Run anyStep schedStep (schedulerInit s₀) h s → SeesRunnable h s := by
  intro hall
  have hready : ((traceFrom schedStep [] (schedulerInit schedulerBoot) tenRecycles).2.tasks 0).state = .ready := by
    decide +kernel
  have hnone : (pickNext (traceFrom schedStep [] (schedulerInit schedulerBoot) tenRecycles).2 none).2.isSome = false := by
    decide +kernel
  have hsome := (hall schedulerBoot _ _ (Run.start.trace (admits_anyStep _ tenRecycles))).1 0 none hready
  rw [hnone] at hsome
  cases hsome

end Lettuce
