import LettuceKernel.Scheduler
/-!
# Registers across task switches

`do_schedule` saves the trap frame only while the current task is RUNNING
(scheduler.c:131-151), but `lettuce_scheduler_sleep_current` sets it SLEEPING first (:228). A
task that goes to sleep is switched out with the registers of its previous switch, and gets
those back when it wakes.

`lastFrame` reads off the history what a task must get back; `RestoresFrames` says that every
switch delivers it; `KeepsContext` is the condition on a step under which it does.
-/

namespace Lettuce

open Runs

/-- What one event fixes as the registers of task `i`: the frame it is switched out with, or the
initial context it is created with. -/
def fixesFrame (s : Scheduler) (e : SchedEvent) (i : Slot) : Option TrapFrame :=
  match e with
  | .create _ _ entryPc stackTop =>
    if freeTaskSlot s.tasks = some i then some (initialContext entryPc stackTop).restore else none
  | e =>
    match e.scheduling with
    | none => none
    | some (_, frame) => if s.current = some i ∧ (schedStep s e).current ≠ some i then frame else none

/-- The registers task `i` had when it was last switched out, or was created with. -/
def lastFrame : SchedHistory → Slot → Option TrapFrame
  | [], _ => none
  | (s, e) :: h, i => (fixesFrame s e i).or (lastFrame h i)

/-- Every switch of the run gives the task switched in exactly its last frame. -/
def RestoresFrames : SchedHistory → Prop
  | [] => True
  | (s, e) :: h =>
    (∀ j, e.scheduling.isSome → s.current ≠ some j → (schedStep s e).current = some j →
      (schedCall s e).frame = lastFrame h j) ∧ RestoresFrames h

/-- A task other than `c` could be given the processor at timer value `now`. -/
def OtherRunnable (s : Scheduler) (c : Slot) (now : Nat) : Prop := ∃ j, j ≠ c ∧ (s.tasks j).Runnable now

/-- The steps that lose no registers: while another task is runnable, the current task is
RUNNING and does not go to sleep; the harness adopts a task only when none is current. -/
def KeepsContext (s : Scheduler) : SchedEvent → Prop
  | .tick now _ => ∀ c, s.current = some c → s.active = true → OtherRunnable s c now.toNat →
      (s.tasks c).state = .running
  | .yield now _ => ∀ c, s.current = some c → s.active = true → OtherRunnable s c now.toNat →
      (s.tasks c).state = .running
  | .sleep _ now _ => ∀ c, s.current = some c → s.active = true → ¬ OtherRunnable s c now.toNat
  | .adopt task => s.current = none ∧ (s.tasks task).state = .ready
  | _ => True

/-- The saved registers of every live task off the processor are its last frame. -/
def Saved (h : SchedHistory) (s : Scheduler) : Prop :=
  ∀ i, (s.tasks i).Live → s.current ≠ some i → lastFrame h i = some (s.tasks i).context.restore

section
variable {h : SchedHistory} {s : Scheduler}

theorem lastFrame_cons_none {e : SchedEvent} {i : Slot} (hf : fixesFrame s e i = none) :
    lastFrame ((s, e) :: h) i = lastFrame h i := by
  simp [lastFrame, hf]

theorem lastFrame_cons_some {e : SchedEvent} {i : Slot} {frame : TrapFrame} (hf : fixesFrame s e i = some frame) :
    lastFrame ((s, e) :: h) i = some frame := by
  simp [lastFrame, hf]

/-- A step that fixes no frame, moves no task onto or off the processor and leaves registers and
liveness of the tasks off it alone keeps `Saved`. -/
theorem Saved.of_same (hs : Saved h s) {e : SchedEvent} {s' : Scheduler}
    (hf : ∀ i, s'.current ≠ some i → (s'.tasks i).Live → fixesFrame s e i = none)
    (hcur : ∀ i, s'.current ≠ some i → (s'.tasks i).Live → s.current ≠ some i)
    (htask : ∀ i, s'.current ≠ some i → (s'.tasks i).Live →
      (s.tasks i).Live ∧ (s'.tasks i).context = (s.tasks i).context) : Saved ((s, e) :: h) s' := by
  intro i hl hc
  obtain ⟨hlive, hctx⟩ := htask i hc hl
  rw [lastFrame_cons_none (hf i hc hl), hctx]
  exact hs i hlive (hcur i hc hl)

theorem Saved.create (hs : Saved h s) (serviceId : ServiceId) (domainId : DomainId) (entryPc stackTop : Reg) :
    Saved ((s, .create serviceId domainId entryPc stackTop) :: h)
      (schedStep s (.create serviceId domainId entryPc stackTop)) := by
  intro i hl hc
  simp only [schedStep, schedCall, taskCreate] at hl hc ⊢
  cases hfree : freeTaskSlot s.tasks with
  | none =>
    simp only [hfree] at hl ⊢
    rw [lastFrame_cons_none (by simp [fixesFrame, hfree])]
    exact hs i hl hc
  | some k =>
    simp only [hfree] at hl ⊢
    by_cases hik : i = k
    · subst hik
      simp only [Function.update_self]
      exact lastFrame_cons_some (by simp [fixesFrame, hfree])
    · simp only [Function.update_of_ne hik] at hl ⊢
      rw [lastFrame_cons_none (by simp [fixesFrame, hfree, Ne.symm hik])]
      exact hs i hl hc

theorem Saved.terminate (hs : Saved h s) (id : TaskId) :
    Saved ((s, .terminate id) :: h) (schedStep s (.terminate id)) := by
  simp only [schedStep, schedCall]
  rcases terminate_cases s id with heq | ⟨k, -, heq⟩
  · rw [heq]
    exact hs.of_same (fun _ _ _ => rfl) (fun _ hc _ => hc) (fun _ _ hl => ⟨hl, rfl⟩)
  · rw [heq]
    have hk : ∀ i, (Function.update s.tasks k (s.tasks k).terminate i).Live → i ≠ k := by
      rintro i hl rfl
      rw [Function.update_self] at hl
      exact hl.2 rfl
    refine hs.of_same (fun _ _ _ => rfl) (fun i hc hl => ?_) (fun i _ hl => ?_)
    · dsimp only at hc
      split at hc
      · rename_i hcur
        rw [hcur]
        exact fun he => hk i hl (Option.some.inj he).symm
      · exact hc
    · have hne := hk i hl
      dsimp only at hl ⊢
      rw [Function.update_of_ne hne] at hl ⊢
      exact ⟨hl, rfl⟩

/-- What `yield` and `sleep_current` do before `do_schedule`: at most the current task changes,
and not its registers. -/
structure Prelude (s s' : Scheduler) : Prop where
  current : s'.current = s.current
  active : s'.active = s.active
  tasks : ∀ i, s.current ≠ some i → s'.tasks i = s.tasks i

theorem Prelude.refl (s : Scheduler) : Prelude s s := ⟨rfl, rfl, fun _ _ => rfl⟩

theorem Prelude.setTask {c : Slot} (hc : s.current = some c) (t : Task) : Prelude s (s.setTask c t) := by
  refine ⟨rfl, rfl, fun i hi => ?_⟩
  have hne : i ≠ c := fun he => hi (he ▸ hc)
  simp [Scheduler.setTask, hne]

/-- One scheduling event: if the current task is RUNNING whenever another one is runnable, the
switch restores the last frame and saves the current one. -/
theorem Saved.schedule (hs : Saved h s) {e : SchedEvent} {s' : Scheduler} {now : BitVec 64}
    {frame : Option TrapFrame} {pre : Bool} (he : e.scheduling = some (now, frame)) (hp : Prelude s s')
    (hcall : schedCall s e = doSchedule s' now.toNat frame pre)
    (hrun : ∀ c, s.current = some c → s.active = true → OtherRunnable s c now.toNat → (s'.tasks c).state = .running) :
    Saved ((s, e) :: h) (schedStep s e) ∧
      ∀ j, s.current ≠ some j → (schedStep s e).current = some j → (schedCall s e).frame = lastFrame h j := by
  have hmove := doSchedule_move s' now.toNat frame pre
  have hnocreate : ∀ i, fixesFrame s e i =
      if s.current = some i ∧ (schedStep s e).current ≠ some i then frame else none := by
    intro i
    cases e with
    | create => cases he
    | _ => simp only [fixesFrame, he]
  simp only [schedStep, hcall] at hnocreate ⊢
  rcases doSchedule_spec s' now.toNat frame pre with hst | ⟨tf, j, rfl, hsw⟩
  · -- no switch: nobody else's registers are touched
    refine ⟨hs.of_same (fun i _ _ => ?_) (fun i hc _ => ?_) (fun i hc hl => ?_), fun j hne hj => ?_⟩
    · rw [hnocreate, if_neg]
      rintro ⟨h1, h2⟩
      exact h2 (hst.current.trans (hp.current.trans h1))
    · exact fun h1 => hc (hst.current.trans (hp.current.trans h1))
    · have hne : s.current ≠ some i := fun h1 => hc (hst.current.trans (hp.current.trans h1))
      rw [(hmove i).live, hp.tasks i hne] at hl
      rw [doSchedule_context s' now.toNat frame pre (hp.current ▸ hne), hp.tasks i hne]
      exact ⟨hl, rfl⟩
    · exact absurd (hp.current.symm.trans (hst.current.symm.trans hj)) hne
  · have hjne : s.current ≠ some j := hp.current ▸ hsw.other
    have hjrun : (s.tasks j).Runnable now.toNat := hp.tasks j hjne ▸ hsw.runnable
    have hjlive := runnable_live hjrun
    have hactive : s.active = true := hp.active ▸ hsw.wasActive
    refine ⟨fun i hl hc => ?_, fun k hne hk => ?_⟩
    · rw [hsw.current] at hc
      by_cases hci : s.current = some i
      · -- the task switched out was RUNNING, so the frame was saved
        have hrunning := hrun i hci hactive ⟨j, fun he => hjne (he ▸ hci), hjrun⟩
        rw [lastFrame_cons_some (by rw [hnocreate, if_pos ⟨hci, by rw [hsw.current]; exact hc⟩])]
        rw [hsw.saved, if_pos ⟨hp.current.trans hci, hrunning⟩, TrapFrame.restore_save]
      · rw [lastFrame_cons_none (by rw [hnocreate, if_neg (fun h1 => hci h1.1)])]
        rw [(hmove i).live, hp.tasks i hci] at hl
        rw [hsw.saved, if_neg (fun h1 => hci (hp.current.symm.trans h1.1)), hp.tasks i hci]
        exact hs i hl hci
    · rw [hsw.current] at hk
      cases hk
      rw [hsw.frame, hp.tasks _ hjne]
      exact (hs _ hjlive hjne).symm

/-- A call that changes neither the tasks' registers and states nor the current task. -/
theorem Saved.of_eq (hs : Saved h s) {e : SchedEvent} {s' : Scheduler} (hf : ∀ i, fixesFrame s e i = none)
    (hcur : s'.current = s.current)
    (htask : ∀ i, ((s'.tasks i).Live ↔ (s.tasks i).Live) ∧ (s'.tasks i).context = (s.tasks i).context) :
    Saved ((s, e) :: h) s' :=
  hs.of_same (fun i _ _ => hf i) (fun _ hc _ => hcur ▸ hc) (fun i _ hl => ⟨(htask i).1.1 hl, (htask i).2⟩)

theorem update_live_context {tasks : TaskTable} {c : Slot} {t : Task} (hl : t.Live ↔ (tasks c).Live)
    (hc : t.context = (tasks c).context) (i : Slot) :
    ((Function.update tasks c t i).Live ↔ (tasks i).Live) ∧
      (Function.update tasks c t i).context = (tasks i).context :=
  update_related (R := fun t t' => (t'.Live ↔ t.Live) ∧ t'.context = t.context) (fun _ => ⟨Iff.rfl, rfl⟩) ⟨hl, hc⟩ i

theorem Saved.step (hs : Saved h s) {e : SchedEvent} (hok : KeepsContext s e) :
    Saved ((s, e) :: h) (schedStep s e) ∧
      ∀ j, e.scheduling.isSome → s.current ≠ some j → (schedStep s e).current = some j →
        (schedCall s e).frame = lastFrame h j := by
  -- a `yield` or `sleep_current` without a current task does nothing
  have idle : schedStep s e = s → (∀ i, s.current = none → fixesFrame s e i = none) → s.current = none →
      Saved ((s, e) :: h) (schedStep s e) ∧ ∀ j, e.scheduling.isSome → s.current ≠ some j →
        (schedStep s e).current = some j → (schedCall s e).frame = lastFrame h j := by
    intro heq hf hc
    rw [heq]
    exact ⟨hs.of_eq (fun i => hf i hc) rfl fun i => ⟨Iff.rfl, rfl⟩, fun j _ hne hj => absurd hj hne⟩
  cases e with
  | init =>
    refine ⟨fun i hl _ => ?_, nofun⟩
    simp only [schedStep, schedCall, schedulerInit_tasks] at hl
    exact absurd rfl hl.1
  | create serviceId domainId entryPc stackTop => exact ⟨hs.create serviceId domainId entryPc stackTop, nofun⟩
  | terminate id => exact ⟨hs.terminate id, nofun⟩
  | setWeight task weight => exact ⟨hs.of_eq (fun _ => rfl) rfl (update_live_context Iff.rfl rfl), nofun⟩
  | setSlice task sliceTicks => exact ⟨hs.of_eq (fun _ => rfl) rfl (update_live_context Iff.rfl rfl), nofun⟩
  | setPolicy policy =>
    have heq : (setPolicy s policy).tasks = s.tasks ∧ (setPolicy s policy).current = s.current := by
      cases policy <;> exact ⟨rfl, rfl⟩
    refine ⟨hs.of_eq (fun _ => rfl) heq.2 fun i => ?_, nofun⟩
    simp only [schedStep, schedCall, heq.1, and_self]
  | setPreemptLimit maxPreempts => exact ⟨hs.of_eq (fun _ => rfl) rfl fun i => ⟨Iff.rfl, rfl⟩, nofun⟩
  | start => exact ⟨hs.of_eq (fun _ => rfl) rfl fun i => ⟨Iff.rfl, rfl⟩, nofun⟩
  | stop => exact ⟨hs.of_eq (fun _ => rfl) rfl fun i => ⟨Iff.rfl, rfl⟩, nofun⟩
  | adopt task =>
    refine ⟨hs.of_same (fun _ _ _ => rfl) (fun i _ _ => by rw [hok.1]; nofun) (fun i hc hl => ?_), nofun⟩
    have hne : i ≠ task := by rintro rfl; exact hc rfl
    simp only [schedStep, schedCall, adopt, Scheduler.setTask, Function.update_of_ne hne] at hl ⊢
    exact ⟨hl, trivial⟩
  | tick now frame =>
    have hcall : schedCall s (.tick now frame) = doSchedule s now.toNat frame true := rfl
    obtain ⟨h1, h2⟩ := hs.schedule rfl (Prelude.refl s) hcall hok
    exact ⟨h1, fun j _ => h2 j⟩
  | yield now frame =>
    cases hc : s.current with
    | none =>
      refine hc ▸ idle ?_ (fun i hn => ?_) hc
      · simp only [schedStep, schedCall, schedulerYield, hc]
      · simp [fixesFrame, SchedEvent.scheduling, hn]
    | some c =>
      have hcall : schedCall s (.yield now frame) =
          doSchedule (s.setTask c (s.tasks c).dropSlice) now.toNat frame false := by
        simp only [schedCall, schedulerYield, hc]
      obtain ⟨h1, h2⟩ := hs.schedule rfl (Prelude.setTask hc _) hcall fun c' hc' ha ho => by
        have : c' = c := Option.some.inj (hc'.symm.trans hc)
        subst this
        simpa [Scheduler.setTask, Task.dropSlice] using hok c' hc' ha ho
      exact ⟨h1, fun j _ => hc ▸ h2 j⟩
  | sleep ticks now frame =>
    cases hc : s.current with
    | none =>
      refine hc ▸ idle ?_ (fun i hn => ?_) hc
      · simp only [schedStep, schedCall, schedulerSleepCurrent, hc]
      · simp [fixesFrame, SchedEvent.scheduling, hn]
    | some c =>
      have hcall : schedCall s (.sleep ticks now frame) =
          doSchedule (s.setTask c ((s.tasks c).sleepUntil now.toNat ticks.toNat)) now.toNat frame false := by
        simp only [schedCall, schedulerSleepCurrent, hc]
      obtain ⟨h1, h2⟩ := hs.schedule rfl (Prelude.setTask hc _) hcall fun c' hc' ha ho => absurd ho (hok c' hc' ha)
      exact ⟨h1, fun j _ => hc ▸ h2 j⟩

end

/-- **Registers survive every switch** of a run whose steps all meet `KeepsContext`: a task is
switched in with exactly the frame it was switched out with, or with its initial context. -/
theorem switches_restore_frames (s₀ : Scheduler) {h : SchedHistory} {s : Scheduler}
    (r : Run KeepsContext schedStep (schedulerInit s₀) h s) : RestoresFrames h := by
  suffices hboth : RestoresFrames h ∧ Saved h s from hboth.1
  induction r with
  | start =>
    refine ⟨trivial, fun i hl _ => ?_⟩
    rw [schedulerInit_tasks] at hl
    exact absurd rfl hl.1
  | next r e hok ih =>
    obtain ⟨hsaved, hrestored⟩ := ih.2.step hok
    exact ⟨⟨hrestored, ih.1⟩, hsaved⟩

/-- Two tasks, the first adopted and running, the scheduler started. -/
def twoTasks : List SchedEvent :=
  [.create 10 100 0x1000 0x2000, .create 20 200 0x3000 0x4000, .adopt firstSlot, .start]

/-- The registers of the first task in the middle of its work. -/
def workingFrame : TrapFrame := { x := fun r => BitVec.ofNat 64 r.val, lr := 0x1080, elr := 0x1044, spsr := 0, spEl0 := 0x1ff0 }

/-- Yielding back and forth meets the condition. -/
theorem switches_restore_frames_yield :
    RestoresFrames (traceFrom schedStep [] (schedulerInit schedulerBoot)
      (twoTasks ++ [.yield 0 (some workingFrame), .yield 0 (some (initialContext 0x3000 0x4000).restore)])).1 := by
  have hadmits : Admits KeepsContext schedStep (schedulerInit schedulerBoot)
      (twoTasks ++ [.yield 0 (some workingFrame), .yield 0 (some (initialContext 0x3000 0x4000).restore)]) := ?_
  · exact switches_restore_frames schedulerBoot (Run.start.trace hadmits)
  refine ⟨trivial, trivial, ⟨rfl, rfl⟩, trivial, ?_, ?_, trivial⟩
  · rintro c ⟨⟩ - -; rfl
  · rintro c hc - -
    have hcur : c = 1 := Option.some.inj (hc.symm.trans (by decide +kernel))
    subst hcur
    decide +kernel

/-- The first task sleeps one tick and is switched back in by the second task's yield: it gets
its initial program counter, not the one it went to sleep with. -/
theorem sleep_loses_registers :
    ¬ ∀ s₀ h s, Run anyStep schedStep (schedulerInit s₀) h s → RestoresFrames h := by
  intro hall
  have hadmits : Admits anyStep schedStep (schedulerInit schedulerBoot) (twoTasks ++
      [.sleep 1 0 (some workingFrame), .yield 1 (some (initialContext 0x3000 0x4000).restore)]) := admits_anyStep _ _
  have hlast := (hall schedulerBoot _ _ (Run.start.trace hadmits)).1 0 rfl (by decide +kernel) (by decide +kernel)
  have hpc := congrArg (Option.map TrapFrame.elr) hlast
  exact absurd hpc (by decide +kernel)

end Lettuce
