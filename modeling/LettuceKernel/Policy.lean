import LettuceKernel.Task
/-!
# Scheduling policies (`kernel/scheduler/rr.c`, `kernel/scheduler/eevdf.c`)

| here | there |
| --- | --- |
| `Scheduler`          | the globals of scheduler.c:36-44, `g_rr_last_idx`, `g_eevdf_vsys`, the task table and `g_current_task` |
| `rrOnTick`, `rrPickNext` | rr.c:23, :35 |
| `policyInit`         | `rr_init` (rr.c:18), `eevdf_init` (eevdf.c:79) |
| `calcVslice`, `calcDeadline`, `activeWeightSum` | eevdf.c:24, :31, :60 |
| `eevdfOnTick`, `eevdfPickNext` | eevdf.c:85, :108, the latter as `eevdfScan` (:119-157) and `eevdfChoose` (:159-182) |
| `eevdfOnTaskReady`, `eevdfOnTaskWake` | eevdf.c:185, :201 |
| `onTick`, `pickNext`, `onTaskReady`, `onTaskWake` | the calls through `g_policy_ops` |

`g_policy_ops` always points to the operations of `g_current_policy_type`. The hooks that are
empty in both policies (`on_task_sleep`, `on_task_block`, `on_task_exit`) and the empty
`rr_on_task_*` have no counterpart.

Policies write only a task's accounting (`timeSliceTicks`, `vruntime`, `vdeadline`,
`totalTicksRun`) and their own variable: `PolicyFrame`.
-/

namespace Lettuce

/-- `LettuceSchedPolicyType` (scheduler.h:24). -/
inductive Policy where
  | rr | eevdf
deriving DecidableEq, Repr

structure Scheduler where
  tasks : TaskTable
  current : Option Slot
  active : Bool
  policy : Policy
  rrLastIdx : Nat
  vsys : Nat
  switchCount : Nat
  preemptCount : Nat
  sameDomainSwitches : Nat
  crossDomainSwitches : Nat
  preemptLimit : Nat

def Scheduler.setTask (s : Scheduler) (i : Slot) (t : Task) : Scheduler :=
  { s with tasks := Function.update s.tasks i t }

/-- `LETTUCE_EEVDF_SCALE` (eevdf.c:15). -/
def eevdfScale : Nat := 65536

/-- `UINT64_MAX`, the start value of both minima in `eevdf_pick_next`. -/
def uint64Max : Nat := 2 ^ 64 - 1

/-- The tail of both `on_tick` hooks: total ticks and remaining slice. -/
def Task.chargeSlice (t : Task) (delta : Nat) : Task :=
  { t with
    totalTicksRun := (t.totalTicksRun + delta) % 2 ^ 64
    timeSliceTicks := if t.timeSliceTicks ≥ delta then t.timeSliceTicks - delta else 0 }

/-! ## Round robin -/

def rrOnTick (s : Scheduler) (curr : Slot) (delta : Nat) : Scheduler :=
  if (s.tasks curr).state = .running then s.setTask curr ((s.tasks curr).chargeSlice delta) else s

/-- The slot the circular scan looks at in round `i`. -/
def rrCandidate (lastIdx i : Nat) : Slot := ⟨(lastIdx + i) % maxTasks, Nat.mod_lt _ (by decide)⟩

/-- The scan of slot `c` succeeds when it finds a READY task. -/
def readyAt (tasks : TaskTable) (c : Slot) : Option Slot :=
  match scanSlot tasks c with
  | none => none
  | some t => if (tasks t).state = .ready then some t else none

def rrPickNext (s : Scheduler) (curr : Option Slot) : Scheduler × Option Slot :=
  let startOffset := if curr.isNone then 0 else 1
  match (List.range' startOffset maxTasks).findSome? fun i => readyAt s.tasks (rrCandidate s.rrLastIdx i) with
  | some t =>
    ({ s.setTask t { s.tasks t with timeSliceTicks := (s.tasks t).quantumTicks } with rrLastIdx := t.val }, some t)
  | none =>
    match curr with
    | none => (s, none)
    | some c =>
      if (s.tasks c).state = .running then
        (s.setTask c { s.tasks c with timeSliceTicks := (s.tasks c).quantumTicks }, some c)
      else (s, none)

/-! ## EEVDF -/

/-- `(task->weight > 0) ? task->weight : LETTUCE_EEVDF_BASE_WEIGHT` -/
def Task.effectiveWeight (t : Task) : Nat := if t.weight > 0 then t.weight else eevdfBaseWeight

def calcVslice (t : Task) : Nat :=
  let slice := if t.requestedSliceTicks > 0 then t.requestedSliceTicks else eevdfDefaultSlice
  slice * eevdfScale % 2 ^ 64 / t.effectiveWeight

def calcDeadline (t : Task) : Nat := (t.vruntime + calcVslice t) % 2 ^ 64

def activeWeightSum (tasks : TaskTable) : Nat :=
  let total := (List.finRange maxTasks).foldl (fun total slot =>
    match scanSlot tasks slot with
    | none => total
    | some i =>
      if (tasks i).state = .ready ∨ (tasks i).state = .running then (total + (tasks i).effectiveWeight) % 2 ^ 32
      else total) 0
  if total > 0 then total else eevdfBaseWeight

def eevdfOnTick (s : Scheduler) (curr : Slot) (delta : Nat) : Scheduler :=
  let t := s.tasks curr
  if t.state = .running then
    let deltaV := delta * eevdfScale % 2 ^ 64 / t.effectiveWeight
    let charged := { t.chargeSlice delta with vruntime := (t.vruntime + deltaV) % 2 ^ 64 }
    let deltaVsys := delta * eevdfScale % 2 ^ 64 / activeWeightSum s.tasks
    { s.setTask curr charged with vsys := (s.vsys + deltaVsys) % 2 ^ 64 }
  else s

/-- The local variables of the scan in `eevdf_pick_next`, with the table it updates. -/
structure EevdfScan where
  tasks : TaskTable
  bestEligible : Option Slot
  earliestDeadline : Nat
  minVruntimeTask : Option Slot
  minVruntime : Nat
  readyCount : Nat

/-- Track the minimum vruntime for the fallback (eevdf.c:131-135). -/
def EevdfScan.trackMin (a : EevdfScan) (i : Slot) : EevdfScan :=
  if (a.tasks i).vruntime < a.minVruntime then
    { a with minVruntime := (a.tasks i).vruntime, minVruntimeTask := some i }
  else a

/-- "Calculate deadline if not yet computed" (eevdf.c:141). -/
def Task.refreshDeadline (t : Task) : Task :=
  if t.vdeadline < t.vruntime then { t with vdeadline := calcDeadline t } else t

/-- Eligible tasks compete by virtual deadline (eevdf.c:138-150). -/
def EevdfScan.trackEligible (vsys : Nat) (a : EevdfScan) (i : Slot) : EevdfScan :=
  let t := a.tasks i
  if t.vruntime ≤ vsys then
    let t := t.refreshDeadline
    let a := { a with tasks := Function.update a.tasks i t }
    if t.vdeadline < a.earliestDeadline then { a with earliestDeadline := t.vdeadline, bestEligible := some i } else a
  else a

/-- One iteration of the outer loop. -/
def EevdfScan.visit (vsys : Nat) (a : EevdfScan) (slot : Slot) : EevdfScan :=
  match readyAt a.tasks slot with
  | none => a
  | some i => ({ a with readyCount := a.readyCount + 1 }.trackMin i).trackEligible vsys i

def eevdfScan (s : Scheduler) : EevdfScan :=
  (List.finRange maxTasks).foldl (EevdfScan.visit s.vsys)
    { tasks := s.tasks, bestEligible := none, earliestDeadline := uint64Max
      minVruntimeTask := none, minVruntime := uint64Max, readyCount := 0 }

/-- The selected task gets a full slice and a new deadline. -/
def Task.renew (t : Task) : Task :=
  { t with timeSliceTicks := t.requestedSliceTicks, vdeadline := calcDeadline t }

/-- The choice after the scan (eevdf.c:159-182). -/
def eevdfChoose (s : Scheduler) (a : EevdfScan) (curr : Option Slot) : Scheduler × Option Slot :=
  let s := { s with tasks := a.tasks }
  match a.bestEligible with
  | some i => (s.setTask i (s.tasks i).renew, some i)
  | none =>
    match (if a.readyCount > 0 then a.minVruntimeTask else none) with
    | some i => ({ s.setTask i (s.tasks i).renew with vsys := a.minVruntime }, some i)
    | none =>
      match curr with
      | none => (s, none)
      | some c => if (s.tasks c).state = .running then (s.setTask c (s.tasks c).renew, some c) else (s, none)

def eevdfPickNext (s : Scheduler) (curr : Option Slot) : Scheduler × Option Slot := eevdfChoose s (eevdfScan s) curr

/-- Pull a lagging task up to the system virtual time and recompute its deadline. -/
def Task.align (vsys : Nat) (t : Task) : Task :=
  let t := if t.vruntime < vsys then { t with vruntime := vsys } else t
  { t with vdeadline := calcDeadline t }

def eevdfOnTaskReady (vsys : Nat) (t : Task) : Task := t.align vsys

def eevdfOnTaskWake (vsys : Nat) (t : Task) : Task := t.align vsys

/-! ## Calls through `g_policy_ops` -/

def policyInit (s : Scheduler) : Scheduler :=
  match s.policy with
  | .rr => { s with rrLastIdx := 0 }
  | .eevdf => { s with vsys := 0 }

def onTick (s : Scheduler) (curr : Slot) (delta : Nat) : Scheduler :=
  match s.policy with
  | .rr => rrOnTick s curr delta
  | .eevdf => eevdfOnTick s curr delta

def pickNext (s : Scheduler) (curr : Option Slot) : Scheduler × Option Slot :=
  match s.policy with
  | .rr => rrPickNext s curr
  | .eevdf => eevdfPickNext s curr

def onTaskReady (policy : Policy) (vsys : Nat) (t : Task) : Task :=
  match policy with
  | .rr => t
  | .eevdf => eevdfOnTaskReady vsys t

def onTaskWake (policy : Policy) (vsys : Nat) (t : Task) : Task :=
  match policy with
  | .rr => t
  | .eevdf => eevdfOnTaskWake vsys t

/-! ## What a policy leaves alone -/

/-- A task without its accounting: everything a policy hook does not write. -/
def Task.kept (t : Task) : Task := { t with timeSliceTicks := 0, vruntime := 0, vdeadline := 0, totalTicksRun := 0 }

/-- A READY task that a scan can find. -/
def Task.Selectable (t : Task) : Prop := t.Scanned ∧ t.state = .ready

instance (t : Task) : Decidable t.Selectable := inferInstanceAs (Decidable (_ ∧ _))

section
variable {t t' : Task} (h : t'.kept = t.kept)
include h

theorem kept_generation : t'.generation = t.generation := by have := congrArg Task.generation h; exact this

theorem kept_state : t'.state = t.state := by have := congrArg Task.state h; exact this

theorem kept_context : t'.context = t.context := by have := congrArg Task.context h; exact this

theorem kept_weight : t'.weight = t.weight := by have := congrArg Task.weight h; exact this

theorem kept_sleepDeadlineTicks : t'.sleepDeadlineTicks = t.sleepDeadlineTicks := by
  have := congrArg Task.sleepDeadlineTicks h; exact this

theorem scanned_congr : t'.Scanned ↔ t.Scanned := by
  rw [Task.Scanned, Task.Scanned, kept_generation h, kept_state h]

theorem selectable_congr : t'.Selectable ↔ t.Selectable := by
  rw [Task.Selectable, Task.Selectable, scanned_congr h, kept_state h]

end

theorem update_kept {tasks : TaskTable} {i : Slot} {t : Task} (ht : t.kept = (tasks i).kept) (j : Slot) :
    (Function.update tasks i t j).kept = (tasks j).kept :=
  update_related (R := fun t t' => t'.kept = t.kept) (fun _ => rfl) ht j

theorem readyAt_eq (tasks : TaskTable) (c : Slot) :
    readyAt tasks c = if (tasks c).Selectable then some c else none := by
  unfold readyAt Task.Selectable
  rw [scanSlot_eq]
  by_cases hs : (tasks c).Scanned <;> simp [hs]

/-- The scheduler's own variables, and every task up to its accounting, are as before. -/
structure PolicyFrame (s s' : Scheduler) : Prop where
  tasks : ∀ i, (s'.tasks i).kept = (s.tasks i).kept
  current : s'.current = s.current
  active : s'.active = s.active
  policy : s'.policy = s.policy
  switchCount : s'.switchCount = s.switchCount
  preemptCount : s'.preemptCount = s.preemptCount
  preemptLimit : s'.preemptLimit = s.preemptLimit

theorem PolicyFrame.refl (s : Scheduler) : PolicyFrame s s := ⟨fun _ => rfl, rfl, rfl, rfl, rfl, rfl, rfl⟩

theorem onTick_frame (s : Scheduler) (curr : Slot) (delta : Nat) : PolicyFrame s (onTick s curr delta) := by
  unfold onTick rrOnTick eevdfOnTick
  split
  · split
    · exact ⟨update_kept rfl, rfl, rfl, rfl, rfl, rfl, rfl⟩
    · exact PolicyFrame.refl s
  · dsimp only
    split
    · exact ⟨update_kept rfl, rfl, rfl, rfl, rfl, rfl, rfl⟩
    · exact PolicyFrame.refl s

theorem kept_vdeadline (t : Task) (n : Nat) : ({ t with vdeadline := n } : Task).kept = t.kept := rfl

theorem kept_vruntime (t : Task) (n : Nat) : ({ t with vruntime := n } : Task).kept = t.kept := rfl

theorem Task.align_kept (v : Nat) (t : Task) : (t.align v).kept = t.kept := by
  unfold Task.align
  dsimp only
  rw [kept_vdeadline]
  split
  · exact kept_vruntime t v
  · rfl

theorem align_vruntime (vsys : Nat) (t : Task) : (t.align vsys).vruntime = max t.vruntime vsys := by
  unfold Task.align
  dsimp only
  split
  · simp only; omega
  · omega

theorem onTaskReady_kept (p : Policy) (v : Nat) (t : Task) : (onTaskReady p v t).kept = t.kept := by
  cases p with
  | rr => rfl
  | eevdf => exact t.align_kept v

theorem onTaskWake_kept (p : Policy) (v : Nat) (t : Task) : (onTaskWake p v t).kept = t.kept := by
  cases p with
  | rr => rfl
  | eevdf => exact t.align_kept v

/-! ## Round robin: what is picked -/

theorem rrCandidate_covers (lastIdx start : Nat) (c : Slot) :
    ∃ i ∈ List.range' start maxTasks, rrCandidate lastIdx i = c := by
  -- the round at which the circular scan reaches `c`
  have hc : c.val < 16 := c.isLt
  refine ⟨start + (c.val + 16 - (lastIdx + start) % 16) % 16, ?_, Fin.ext ?_⟩
  · rw [List.mem_range'_1]; simp only [maxTasks]; omega
  · simp only [rrCandidate, maxTasks]; omega

theorem rrPickNext_frame (s : Scheduler) (curr : Option Slot) : PolicyFrame s (rrPickNext s curr).1 := by
  unfold rrPickNext
  dsimp only
  split
  · exact ⟨update_kept rfl, rfl, rfl, rfl, rfl, rfl, rfl⟩
  · split
    · exact PolicyFrame.refl s
    · split
      · exact ⟨update_kept rfl, rfl, rfl, rfl, rfl, rfl, rfl⟩
      · exact PolicyFrame.refl s

theorem rrPickNext_some {s : Scheduler} {curr : Option Slot} {j : Slot} (h : (rrPickNext s curr).2 = some j) :
    (s.tasks j).Selectable ∨ (curr = some j ∧ (s.tasks j).state = .running) := by
  unfold rrPickNext at h
  dsimp only at h
  split at h
  · rename_i t hf
    obtain ⟨i, -, hi⟩ := List.exists_of_findSome?_eq_some hf
    rw [readyAt_eq] at hi
    split at hi
    · rename_i hsel
      cases hi
      cases h
      exact Or.inl hsel
    · cases hi
  · split at h
    · cases h
    · split at h
      · rename_i hrun
        cases h
        exact Or.inr ⟨rfl, hrun⟩
      · cases h

theorem rrPickNext_isSome {s : Scheduler} {i : Slot} (hi : (s.tasks i).Selectable) (curr : Option Slot) :
    (rrPickNext s curr).2.isSome := by
  unfold rrPickNext
  dsimp only
  split
  · rfl
  · rename_i hf
    obtain ⟨k, hk, hc⟩ := rrCandidate_covers s.rrLastIdx (if curr.isNone then 0 else 1) i
    have := List.findSome?_eq_none_iff.1 hf k hk
    rw [hc, readyAt_eq, if_pos hi] at this
    cases this

/-! ## EEVDF: what is picked -/

theorem Task.refreshDeadline_kept (t : Task) : t.refreshDeadline.kept = t.kept := by
  unfold Task.refreshDeadline
  split
  · exact kept_vdeadline t _
  · rfl

theorem Task.refreshDeadline_vruntime (t : Task) : t.refreshDeadline.vruntime = t.vruntime := by
  unfold Task.refreshDeadline
  split <;> rfl

/-- What the scan knows after some of the slots. -/
structure EevdfScan.Good (s : Scheduler) (a : EevdfScan) : Prop where
  tasks : ∀ i, (a.tasks i).kept = (s.tasks i).kept
  vruntime : ∀ i, (a.tasks i).vruntime = (s.tasks i).vruntime
  best : ∀ i, a.bestEligible = some i → (s.tasks i).Selectable
  minTask : ∀ i, a.minVruntimeTask = some i → (s.tasks i).Selectable ∧ a.minVruntime = (s.tasks i).vruntime
  minNone : a.minVruntimeTask = none → a.minVruntime = uint64Max
  counted : a.minVruntimeTask.isSome → 0 < a.readyCount

section
variable {s : Scheduler} {a : EevdfScan} {i : Slot}

theorem EevdfScan.Good.trackMin (h : a.Good s) (hi : (s.tasks i).Selectable) (hc : 0 < a.readyCount) :
    (a.trackMin i).Good s := by
  unfold EevdfScan.trackMin
  split
  · refine ⟨h.tasks, h.vruntime, h.best, fun j hj => ?_, nofun, fun _ => hc⟩
    cases hj
    exact ⟨hi, h.vruntime i⟩
  · exact h

theorem EevdfScan.Good.trackEligible (h : a.Good s) (hi : (s.tasks i).Selectable) (vsys : Nat) :
    (a.trackEligible vsys i).Good s := by
  unfold EevdfScan.trackEligible
  dsimp only
  split
  · have htasks : ∀ j, (Function.update a.tasks i (a.tasks i).refreshDeadline j).kept = (s.tasks j).kept := fun j =>
      (update_kept (a.tasks i).refreshDeadline_kept j).trans (h.tasks j)
    have hvruntime : ∀ j, (Function.update a.tasks i (a.tasks i).refreshDeadline j).vruntime =
        (s.tasks j).vruntime := by
      intro j
      by_cases hj : j = i
      · subst hj; rw [Function.update_self, Task.refreshDeadline_vruntime]; exact h.vruntime j
      · rw [Function.update_of_ne hj]; exact h.vruntime j
    split
    · refine ⟨htasks, hvruntime, fun j hj => ?_, h.minTask, h.minNone, h.counted⟩
      cases hj
      exact hi
    · exact ⟨htasks, hvruntime, h.best, h.minTask, h.minNone, h.counted⟩
  · exact h

theorem EevdfScan.Good.visit (h : a.Good s) (vsys : Nat) (slot : Slot) : (a.visit vsys slot).Good s := by
  unfold EevdfScan.visit
  rw [readyAt_eq]
  by_cases hsel : (a.tasks slot).Selectable
  · rw [if_pos hsel]
    have hi : (s.tasks slot).Selectable := (selectable_congr (h.tasks slot)).1 hsel
    have hcount : EevdfScan.Good s { a with readyCount := a.readyCount + 1 } :=
      ⟨h.tasks, h.vruntime, h.best, h.minTask, h.minNone, fun _ => Nat.succ_pos _⟩
    exact (hcount.trackMin hi (Nat.succ_pos _)).trackEligible hi vsys
  · rw [if_neg hsel]; exact h

theorem EevdfScan.Good.foldl (l : List Slot) (vsys : Nat) (h : a.Good s) :
    (l.foldl (EevdfScan.visit vsys) a).Good s := by
  induction l generalizing a with
  | nil => exact h
  | cons slot l ih => exact ih (h.visit vsys slot)

theorem EevdfScan.Good.start (s : Scheduler) : EevdfScan.Good s
    { tasks := s.tasks, bestEligible := none, earliestDeadline := uint64Max
      minVruntimeTask := none, minVruntime := uint64Max, readyCount := 0 } :=
  ⟨fun _ => rfl, fun _ => rfl, nofun, nofun, fun _ => rfl, nofun⟩

theorem eevdfScan_good (s : Scheduler) : (eevdfScan s).Good s := EevdfScan.Good.foldl _ _ (.start s)

@[simp] theorem EevdfScan.trackEligible_minVruntimeTask (vsys : Nat) (a : EevdfScan) (i : Slot) :
    (a.trackEligible vsys i).minVruntimeTask = a.minVruntimeTask := by
  unfold EevdfScan.trackEligible
  dsimp only
  split
  · split <;> rfl
  · rfl

theorem EevdfScan.visit_minVruntimeTask_isSome (vsys : Nat) (slot : Slot) (h : a.minVruntimeTask.isSome) :
    (a.visit vsys slot).minVruntimeTask.isSome := by
  unfold EevdfScan.visit
  split
  · exact h
  · rw [EevdfScan.trackEligible_minVruntimeTask]
    unfold EevdfScan.trackMin
    split
    · rfl
    · exact h

/-- Visiting a selectable task whose vruntime is below the sentinel leaves a fallback task. -/
theorem EevdfScan.Good.visit_finds (h : a.Good s) (hi : (s.tasks i).Selectable)
    (hv : (s.tasks i).vruntime < uint64Max) (vsys : Nat) : (a.visit vsys i).minVruntimeTask.isSome := by
  unfold EevdfScan.visit
  rw [readyAt_eq, if_pos ((selectable_congr (h.tasks i)).2 hi)]
  rw [EevdfScan.trackEligible_minVruntimeTask]
  unfold EevdfScan.trackMin
  split
  · rfl
  · rename_i hnot
    cases hm : a.minVruntimeTask with
    | some j => simp
    | none =>
      have hmax := h.minNone hm
      have hvr := h.vruntime i
      simp only [hmax, hvr] at hnot
      exact absurd hv hnot

theorem EevdfScan.foldl_finds (l : List Slot) (vsys : Nat) (h : a.Good s)
    (hfound : a.minVruntimeTask.isSome ∨ ∃ i ∈ l, (s.tasks i).Selectable ∧ (s.tasks i).vruntime < uint64Max) :
    (l.foldl (EevdfScan.visit vsys) a).minVruntimeTask.isSome := by
  induction l generalizing a with
  | nil =>
    rcases hfound with hf | ⟨i, hi, -⟩
    · exact hf
    · cases hi
  | cons slot l ih =>
    refine ih (h.visit vsys slot) ?_
    rcases hfound with hf | ⟨i, hi, hsel, hv⟩
    · exact Or.inl (a.visit_minVruntimeTask_isSome vsys slot hf)
    · rcases List.mem_cons.1 hi with rfl | hi
      · exact Or.inl (h.visit_finds hsel hv vsys)
      · exact Or.inr ⟨i, hi, hsel, hv⟩

theorem EevdfScan.Good.choose_frame (hg : a.Good s) (curr : Option Slot) :
    PolicyFrame s (eevdfChoose s a curr).1 := by
  have hset : ∀ i j, (Function.update a.tasks i (a.tasks i).renew j).kept = (s.tasks j).kept :=
    fun i j => (update_kept (t := (a.tasks i).renew) rfl j).trans (hg.tasks j)
  unfold eevdfChoose
  dsimp only
  split
  · exact ⟨hset _, rfl, rfl, rfl, rfl, rfl, rfl⟩
  · split
    · exact ⟨hset _, rfl, rfl, rfl, rfl, rfl, rfl⟩
    · split
      · exact ⟨hg.tasks, rfl, rfl, rfl, rfl, rfl, rfl⟩
      · split
        · exact ⟨hset _, rfl, rfl, rfl, rfl, rfl, rfl⟩
        · exact ⟨hg.tasks, rfl, rfl, rfl, rfl, rfl, rfl⟩

theorem EevdfScan.Good.choose_some (hg : a.Good s) {curr : Option Slot} {j : Slot}
    (h : (eevdfChoose s a curr).2 = some j) :
    (s.tasks j).Selectable ∨ (curr = some j ∧ (s.tasks j).state = .running) := by
  unfold eevdfChoose at h
  dsimp only at h
  split at h
  · rename_i i hbest
    cases h
    exact Or.inl (hg.best _ hbest)
  · split at h
    · rename_i i hmin
      cases h
      split at hmin
      · exact Or.inl (hg.minTask _ hmin).1
      · cases hmin
    · split at h
      · cases h
      · split at h
        · rename_i hrun
          cases h
          exact Or.inr ⟨rfl, (kept_state (hg.tasks _)) ▸ hrun⟩
        · cases h

theorem EevdfScan.Good.choose_isSome (hg : a.Good s) (hmin : a.minVruntimeTask.isSome) (curr : Option Slot) :
    (eevdfChoose s a curr).2.isSome := by
  unfold eevdfChoose
  dsimp only
  split
  · rfl
  · split
    · rfl
    · rename_i hnone
      rw [if_pos (hg.counted hmin)] at hnone
      rw [hnone] at hmin
      cases hmin

theorem eevdfScan_finds (hi : (s.tasks i).Selectable) (hv : (s.tasks i).vruntime < uint64Max) :
    (eevdfScan s).minVruntimeTask.isSome := by
  unfold eevdfScan
  exact EevdfScan.foldl_finds _ _ (.start s) (Or.inr ⟨i, List.mem_finRange i, hi, hv⟩)

end

/-! ## Either policy -/

theorem pickNext_frame (s : Scheduler) (curr : Option Slot) : PolicyFrame s (pickNext s curr).1 := by
  unfold pickNext
  split
  · exact rrPickNext_frame s curr
  · exact (eevdfScan_good s).choose_frame curr

/-- The picked task is READY and was found by a scan, or is the current task still RUNNING. -/
theorem pickNext_some {s : Scheduler} {curr : Option Slot} {j : Slot} (h : (pickNext s curr).2 = some j) :
    (s.tasks j).Selectable ∨ (curr = some j ∧ (s.tasks j).state = .running) := by
  unfold pickNext at h
  split at h
  · exact rrPickNext_some h
  · exact (eevdfScan_good s).choose_some h

theorem pickNext_isSome {s : Scheduler} {i : Slot} (hi : (s.tasks i).Selectable)
    (hv : s.policy = .eevdf → (s.tasks i).vruntime < uint64Max) (curr : Option Slot) : (pickNext s curr).2.isSome := by
  unfold pickNext
  split
  · exact rrPickNext_isSome hi curr
  · rename_i hp
    exact (eevdfScan_good s).choose_isSome (eevdfScan_finds hi (hv hp)) curr

end Lettuce
