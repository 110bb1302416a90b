import LettuceKernel.EevdfStep
import LettuceKernel.SingleRunning
/-!
# Weights and slices in every reachable state

The setters clamp the weight to 1..10240 and the slice to at least 1, a new task has the defaults,
and everything that writes `time_slice_ticks` copies a slice or counts one down. This holds in every
run of the interface, under either policy and whatever the virtual times are.
-/

namespace Lettuce

open Runs

structure Task.SliceFits (t : Task) : Prop where
  settings : t.Settings
  quantum : t.quantumTicks < 2 ^ 32
  timeSlice : t.timeSliceTicks < 2 ^ 32

def SlicesFit (s : Scheduler) : Prop := ∀ i, (s.tasks i).SliceFits

section
variable {t : Task} {s : Scheduler}

/-- Everything but weight and slices may change. -/
theorem Task.SliceFits.congr {t' : Task} (h : t.SliceFits) (hw : t'.weight = t.weight)
    (hr : t'.requestedSliceTicks = t.requestedSliceTicks) (hq : t'.quantumTicks = t.quantumTicks)
    (hs : t'.timeSliceTicks < 2 ^ 32) : t'.SliceFits := by
  obtain ⟨⟨h1, h2, h3, h4⟩, h5, -⟩ := h
  exact ⟨⟨by rwa [hw], by rwa [hw], by rwa [hr], by rwa [hr]⟩, by rwa [hq], hs⟩

theorem Task.SliceFits.align (h : t.SliceFits) (vsys : Nat) : (t.align vsys).SliceFits := by
  unfold Task.align
  dsimp only
  split
  · exact h.congr rfl rfl rfl h.timeSlice
  · exact h.congr rfl rfl rfl h.timeSlice

theorem Task.SliceFits.onTaskReady (h : t.SliceFits) (policy : Policy) (vsys : Nat) : (onTaskReady policy vsys t).SliceFits := by
  cases policy with
  | rr => exact h
  | eevdf => exact h.align vsys

theorem Task.SliceFits.wake (h : t.SliceFits) (policy : Policy) (vsys now : Nat) : (t.wake policy vsys now).SliceFits := by
  have hready : ({ t with state := .ready } : Task).SliceFits := h.congr rfl rfl rfl h.timeSlice
  unfold Task.wake
  split
  · cases policy with
    | rr => exact hready
    | eevdf => exact hready.align vsys
  · exact h

theorem Task.SliceFits.chargeSlice (h : t.SliceFits) (delta : Nat) : (t.chargeSlice delta).SliceFits := by
  have hs := h.timeSlice
  refine h.congr rfl rfl rfl ?_
  simp only [Task.chargeSlice]
  split <;> omega

theorem Task.SliceFits.renew (h : t.SliceFits) : t.renew.SliceFits := h.congr rfl rfl rfl h.settings.slice_lt

theorem Task.SliceFits.refreshDeadline (h : t.SliceFits) : t.refreshDeadline.SliceFits := by
  unfold Task.refreshDeadline
  split
  · exact h.congr rfl rfl rfl h.timeSlice
  · exact h

theorem SlicesFit.setTask (h : SlicesFit s) {i : Slot} (ht : t.SliceFits) : SlicesFit (s.setTask i t) := every_update h ht

theorem SlicesFit.wakeSleepers (h : SlicesFit s) (now : Nat) : SlicesFit (wakeSleepers s now) := by
  intro i
  rw [wakeSleepers_tasks]
  split
  · exact (h i).wake _ _ _
  · exact h i

theorem SlicesFit.onTick (h : SlicesFit s) (c : Slot) : SlicesFit (onTick s c 1) := by
  have hcharge := (h c).chargeSlice 1
  unfold Lettuce.onTick rrOnTick eevdfOnTick
  split
  · split
    · exact h.setTask hcharge
    · exact h
  · have hcharged : ∀ v, ({ (s.tasks c).chargeSlice 1 with vruntime := v } : Task).SliceFits :=
      fun v => hcharge.congr rfl rfl rfl hcharge.timeSlice
    dsimp only
    split
    · exact every_update h (hcharged _)
    · exact h

theorem SlicesFit.prepared (h : SlicesFit s) (now : Nat) (frame : TrapFrame) : SlicesFit (prepared s now frame) := by
  rcases running_or_not s with ⟨c, hc, hrun⟩ | hno
  · rw [prepared_of_running s now frame hc hrun]
    have htick := (h.wakeSleepers now).onTick c
    refine htick.setTask (Task.SliceFits.onTaskReady ?_ _ _)
    exact (htick c).congr rfl rfl rfl (htick c).timeSlice
  · rw [prepared_of_not_running s now frame hno]
    exact h.wakeSleepers now

/-- An iteration of the scan writes a deadline at most. -/
theorem EevdfScan.visit_sliceFits {a : EevdfScan} (ha : ∀ i, (a.tasks i).SliceFits) (vsys : Nat) (slot : Slot) :
    ∀ i, ((a.visit vsys slot).tasks i).SliceFits := by
  unfold EevdfScan.visit
  split
  · exact ha
  · rename_i i _
    have hmin : (({ a with readyCount := a.readyCount + 1 } : EevdfScan).trackMin i).tasks = a.tasks := by
      unfold EevdfScan.trackMin
      split <;> rfl
    have hset : ∀ j, (Function.update a.tasks i (a.tasks i).refreshDeadline j).SliceFits :=
      every_update ha (ha i).refreshDeadline
    unfold EevdfScan.trackEligible
    dsimp only
    rw [hmin]
    split
    · split
      · exact hset
      · exact hset
    · rw [hmin]
      exact ha

theorem SlicesFit.eevdfScan (h : SlicesFit s) : ∀ i, ((Lettuce.eevdfScan s).tasks i).SliceFits := by
  have hfold : ∀ (l : List Slot) (a : EevdfScan), (∀ i, (a.tasks i).SliceFits) →
      ∀ i, ((l.foldl (EevdfScan.visit s.vsys) a).tasks i).SliceFits := by
    intro l
    induction l with
    | nil => exact fun _ ha => ha
    | cons slot l ih => exact fun a ha => ih _ (EevdfScan.visit_sliceFits ha s.vsys slot)
  unfold Lettuce.eevdfScan
  exact hfold (List.finRange maxTasks) _ h

theorem SlicesFit.rrPickNext (h : SlicesFit s) (curr : Option Slot) : SlicesFit (rrPickNext s curr).1 := by
  have hfull : ∀ i, ({ s.tasks i with timeSliceTicks := (s.tasks i).quantumTicks } : Task).SliceFits :=
    fun i => (h i).congr rfl rfl rfl (h i).quantum
  unfold Lettuce.rrPickNext
  dsimp only
  split
  · exact every_update h (hfull _)
  · split
    · exact h
    · split
      · exact h.setTask (hfull _)
      · exact h

theorem SlicesFit.eevdfPickNext (h : SlicesFit s) (curr : Option Slot) : SlicesFit (eevdfPickNext s curr).1 := by
  have hscan := h.eevdfScan
  unfold Lettuce.eevdfPickNext eevdfChoose
  generalize Lettuce.eevdfScan s = a at hscan ⊢
  have hscan : SlicesFit { s with tasks := a.tasks } := hscan
  dsimp only
  split
  · exact hscan.setTask (hscan _).renew
  · split
    · exact every_update hscan (hscan _).renew
    · split
      · exact hscan
      · split
        · exact hscan.setTask (hscan _).renew
        · exact hscan

theorem SlicesFit.pickNext (h : SlicesFit s) (curr : Option Slot) : SlicesFit (pickNext s curr).1 := by
  unfold Lettuce.pickNext
  split
  · exact h.rrPickNext curr
  · exact h.eevdfPickNext curr

theorem SlicesFit.selectNext (h : SlicesFit s) (frame : TrapFrame) (pre : Bool) : SlicesFit (selectNext s frame pre).sched := by
  have hpick := h.pickNext s.current
  rcases selectNext_outcome s frame pre with ⟨-, -, heq⟩ | ⟨c, -, -, -, heq⟩ | ⟨j, -, -, heq⟩ | ⟨j, -, -, heq⟩
  · rw [heq]; exact hpick
  · rw [heq]; exact hpick.setTask ((hpick c).congr rfl rfl rfl (hpick c).quantum)
  · rw [heq]; exact hpick.setTask ((hpick j).congr rfl rfl rfl (hpick j).quantum)
  · have hrun : ({ (Lettuce.pickNext s s.current).1.tasks j with state := .running } : Task).SliceFits :=
      (hpick j).congr rfl rfl rfl (hpick j).timeSlice
    rw [heq]
    exact every_update hpick hrun

theorem SlicesFit.doSchedule (h : SlicesFit s) (now : Nat) (trapFrame : Option TrapFrame) (pre : Bool) :
    SlicesFit (doSchedule s now trapFrame pre).sched := by
  rcases doSchedule_decision s now trapFrame pre with ⟨-, heq, -⟩ | ⟨c, frame, -, -, -, -, -, -, -, heq⟩ |
    ⟨frame, -, -, -, heq⟩
  · rw [heq]; exact h
  · rw [heq]; exact (h.wakeSleepers now).onTick c
  · rw [heq]; exact (h.prepared now frame).selectNext frame pre

theorem Task.Edit.sliceFits {t' : Task} (h : t.Edit t') (ht : t.SliceFits) : t'.SliceFits := by
  refine ⟨h.settings ht.settings, ?_, ?_⟩
  · cases h with
    | created => exact (by decide : eevdfDefaultSlice < 2 ^ 32)
    | slice hpos hlt => exact hlt
    | _ => exact ht.quantum
  · cases h with
    | created => exact (by decide : eevdfDefaultSlice < 2 ^ 32)
    | _ => exact ht.timeSlice

theorem slicesFit_init (s : Scheduler) : SlicesFit (schedulerInit s) := by
  intro i
  rw [schedulerInit_tasks]
  exact ⟨settings_default rfl rfl, (by decide : eevdfDefaultSlice < 2 ^ 32), (by decide : 0 < 2 ^ 32)⟩

/-- Before it schedules an event may drop a slice. -/
theorem SlicesFit.called (h : SlicesFit s) {e : SchedEvent} {k : ScheduleCall} (hk : scheduleCall s e = some k) :
    SlicesFit k.sched := by
  rcases scheduleCall_sched hk with heq | ⟨c, -, heq | ⟨now, ticks, heq⟩⟩
  · rw [heq]; exact h
  · rw [heq]; exact h.setTask ((h c).congr rfl rfl rfl (by decide : 0 < 2 ^ 32))
  · rw [heq]; exact h.setTask ((h c).congr rfl rfl rfl (h c).timeSlice)

/-- The events of the interface keep every slice in its 32 bits. -/
theorem SlicesFit.step (h : SlicesFit s) {e : SchedEvent} (he : InterfaceCall s e) : SlicesFit (schedStep s e) := by
  by_cases hcall : EevdfCall s e
  · rcases schedStep_edit hcall with ⟨k, hk, hstep⟩ | ⟨-, -, -, hedit⟩
    · rw [hstep]
      exact (h.called hk).doSchedule k.now k.frame k.isPreemption
    · intro i
      exact (hedit i).sliceFits (h i)
  · cases e with
    | init => exact slicesFit_init s
    | setPolicy policy => cases policy <;> exact h
    | adopt task => exact he.elim
    | _ => exact absurd trivial hcall

end

end Lettuce
