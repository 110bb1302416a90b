import LettuceKernel.Cpu
/-!
# Whose frame a return pops

There is one context stack for all tasks, and `do_schedule` neither saves nor looks at it.
From the history of a run we read off two things: `openFrames`, the frames on the stack, each
with the time it was pushed, and `unreturned`, the calls of one task that it has not returned
from. `returns_pop_own_frames_iff` says when the two agree for the task on the processor: as
long as no task is switched to while frames of another are open. (`lettuce_preempt_disable`,
which could keep it so, is not called on the call path.)
-/

namespace Lettuce

open Runs

/-- A frame and the number of steps made before its push, which tells equal frames apart. -/
structure PushedFrame where
  time : Nat
  frame : ArchContextFrame
deriving DecidableEq, Repr

/-- A call pushes the caller's frame. -/
def Arch.pushes (arch : Arch) (m : Machine) : MachineEvent → Option ArchContextFrame
  | .trap (.svcCall kind) frame => if m.inEl0 && m.accepts kind frame then some (arch.callFrame m frame) else none
  | _ => none

def Machine.returns (m : Machine) : MachineEvent → Bool
  | .trap .svcReturn _ => m.inEl0
  | _ => false

/-- Open calls after one more step. -/
def Arch.follow (arch : Arch) (m : Machine) (e : MachineEvent) (time : Nat) (l : List PushedFrame) :
    List PushedFrame :=
  match arch.pushes m e with
  | some frame => { time, frame } :: l
  | none => if m.returns e then l.tail else l

/-- The frames on the stack, innermost first. -/
def Arch.openFrames (arch : Arch) : MachineHistory → List PushedFrame
  | [] => []
  | (m, e) :: h => arch.follow m e h.length (arch.openFrames h)

/-- The calls that the task `o` made and has not returned from, innermost first. `none` is code
that runs while no task is current. -/
def Arch.unreturned (arch : Arch) : MachineHistory → Option Slot → List PushedFrame
  | [], _ => []
  | (m, e) :: h, o =>
    if m.sched.current = o then arch.follow m e h.length (arch.unreturned h o) else arch.unreturned h o

/-- An SVC #0 executed now pops the frame of the current task's innermost unreturned call, and no
frame if it has none. -/
structure PopsOwnFrame (arch : Arch) (h : MachineHistory) (m : Machine) : Prop where
  stack : (arch.openFrames h).map PushedFrame.frame = m.stack
  own : m.inEl0 = true → (arch.openFrames h).head? = (arch.unreturned h m.sched.current).head?

/-- Another task gets to run only while no call is open. A switch that reaches the preemption
limit goes to the kernel instead. -/
def SwitchesUnwound (m : Machine) : MachineEvent → Prop
  | .trap t frame => m.inEl0 = true → m.SwitchDue t frame →
      m.stack = [] ∨ (t = .timer ∧ m.sched.limitReached true = true)
  | _ => True

/-- All open frames belong to the current task. -/
structure Owned (arch : Arch) (h : MachineHistory) (m : Machine) : Prop where
  stack : (arch.openFrames h).map PushedFrame.frame = m.stack
  owner : m.inEl0 = true →
    ∀ o, arch.unreturned h o = if o = m.sched.current then arch.openFrames h else []

section
variable {arch : Arch} {h : MachineHistory} {m : Machine}

theorem Owned.popsOwnFrame (hm : Owned arch h m) : PopsOwnFrame arch h m := by
  refine ⟨hm.stack, fun hin => ?_⟩
  rw [hm.owner hin, if_pos rfl]

/-- A step that neither pushes nor returns. -/
theorem follow_other {e : MachineEvent} (hp : arch.pushes m e = none) (hr : m.returns e = false) (time : Nat)
    (l : List PushedFrame) : arch.follow m e time l = l := by
  simp [Arch.follow, hp, hr]

theorem follow_nil {e : MachineEvent} (hp : arch.pushes m e = none) (time : Nat) : arch.follow m e time [] = [] := by
  simp [Arch.follow, hp]

/-- A step that leaves the current task on the processor changes that task's calls as it changes
the stack, and nobody else's. -/
theorem Owned.follow (hm : Owned arch h m) {e : MachineEvent} {m' : Machine} (hin : m.inEl0 = true)
    (hstack : (arch.follow m e h.length (arch.openFrames h)).map PushedFrame.frame = m'.stack)
    (hcur : m'.inEl0 = true → m'.sched.current = m.sched.current) : Owned arch ((m, e) :: h) m' := by
  refine ⟨hstack, fun hin' o => ?_⟩
  rw [hcur hin']
  simp only [Arch.unreturned, Arch.openFrames]
  by_cases ho : m.sched.current = o
  · rw [if_pos ho, if_pos ho.symm, hm.owner hin, if_pos ho.symm]
  · rw [if_neg ho, if_neg (Ne.symm ho), hm.owner hin, if_neg (Ne.symm ho)]

/-- A switch with nothing on the stack: no task has an open call. -/
theorem Owned.switch_nil (hm : Owned arch h m) {e : MachineEvent} {m' : Machine} (hin : m.inEl0 = true)
    (hp : arch.pushes m e = none) (hnil : m.stack = []) (hstack : m'.stack = m.stack) :
    Owned arch ((m, e) :: h) m' := by
  have hopen : arch.openFrames h = [] := by
    have hmap := hm.stack
    rw [hnil] at hmap
    exact List.map_eq_nil_iff.1 hmap
  have hall : ∀ o, arch.unreturned h o = [] := by
    intro o
    rw [hm.owner hin, hopen, ite_self]
  refine ⟨?_, fun _ o => ?_⟩
  · simp only [Arch.openFrames, hopen, follow_nil hp, hstack, hnil, List.map_nil]
  · simp only [Arch.unreturned, Arch.openFrames, hopen, hall, follow_nil hp, ite_self]

/-- A switch that ends in the kernel. -/
theorem Owned.switch_kernel (hm : Owned arch h m) {e : MachineEvent} {m' : Machine}
    (hp : arch.pushes m e = none) (hr : m.returns e = false) (hstack : m'.stack = m.stack) (hk : m'.inEl0 = false) :
    Owned arch ((m, e) :: h) m' := by
  refine ⟨?_, fun hin' => by rw [hk] at hin'; cases hin'⟩
  simp only [Arch.openFrames, follow_other hp hr, hm.stack, hstack]

theorem Owned.switch (hm : Owned arch h m) (hin : m.inEl0 = true) {t : Trap} {frame : TrapFrame} {j : Slot}
    {m' : Machine} (hsw : m.SwitchesTo arch t j m') (hp : arch.pushes m (.trap t frame) = none)
    (hr : m.returns (.trap t frame) = false)
    (hok : m.stack = [] ∨ (t = .timer ∧ m.sched.limitReached true = true)) :
    Owned arch ((m, .trap t frame) :: h) m' := by
  obtain ⟨sched, ticks, rfl⟩ := hsw.eq
  rcases hok with hnil | ⟨rfl, hlimit⟩
  · exact hm.switch_nil hin hp hnil rfl
  · refine hm.switch_kernel hp hr rfl ?_
    simp [Machine.inEl0, hlimit]

theorem Owned.trapStep (hm : Owned arch h m) (hin : m.inEl0 = true) {t : Trap} {frame : TrapFrame}
    (ht : TaskTrap (.trap t frame)) (hok : SwitchesUnwound m (.trap t frame)) :
    Owned arch ((m, .trap t frame) :: h) (arch.trapStep m t frame) := by
  have hmap := hm.stack
  have hsched := fun ht => yieldOrTick_cases arch m (t := t) ht frame
  cases t with
  | svcReturn =>
    simp only [Arch.trapStep]
    have hfollow : arch.follow m (.trap .svcReturn frame) h.length (arch.openFrames h) = (arch.openFrames h).tail := by
      simp [Arch.follow, Arch.pushes, Machine.returns, hin]
    cases hstack : m.stack with
    | nil =>
      rw [svcReturn_nil arch hstack]
      refine hm.follow hin ?_ (fun _ => rfl)
      rw [hfollow, List.map_tail, hmap, hstack]
      rfl
    | cons f rest =>
      rw [svcReturn_cons arch hstack]
      refine hm.follow hin ?_ (fun _ => rfl)
      rw [hfollow, List.map_tail, hmap, hstack]
      rfl
  | svcCall kind =>
    simp only [Arch.trapStep]
    rcases svcCall_cases arch m kind frame with ⟨hacc, status, heq⟩ | ⟨hacc, r, -, -, heq⟩
    · rw [heq]
      refine hm.follow hin ?_ (fun _ => rfl)
      rw [follow_other (by simp [Arch.pushes, hacc]) rfl, hmap]
    · rw [heq]
      refine hm.follow hin ?_ (fun _ => rfl)
      simp [Arch.follow, Arch.pushes, hacc, hin, hmap]
  | svcYield | timer =>
    rcases hsched (by simp) with ⟨-, hc⟩ | ⟨hdue, j, hsw⟩
    · obtain ⟨sched, ticks, heq⟩ := hc.eq
      refine hm.follow hin ?_ (fun _ => hc.current)
      rw [follow_other rfl rfl, hmap, heq]
    · exact hm.switch hin hsw rfl rfl (hok hin hdue)
  | _ => exact ht.elim

theorem Owned.step (hm : Owned arch h m) {e : MachineEvent} (he : TaskTrap e) (hok : SwitchesUnwound m e) :
    Owned arch ((m, e) :: h) (arch.machineStep m e) := by
  cases e with
  | trap t frame =>
    cases hin : m.inEl0 with
    | true =>
      rw [machineStep_trap arch hin]
      exact hm.trapStep hin he hok
    | false =>
      rw [machineStep_trap_of_not arch hin]
      refine hm.switch_kernel ?_ ?_ rfl hin
      · cases t <;> simp [Arch.pushes, hin]
      · cases t <;> simp [Machine.returns, hin]
  | _ => exact he.elim

/-- A switch with a call open puts a task in front of frames that are not its own. -/
theorem Owned.not_popsOwnFrame (hm : Owned arch h m) {e : MachineEvent} (he : TaskTrap e)
    (hok : ¬ SwitchesUnwound m e) : ¬ PopsOwnFrame arch ((m, e) :: h) (arch.machineStep m e) := by
  intro hpop
  cases e with
  | trap t frame =>
    simp only [SwitchesUnwound, Classical.not_imp, not_or, not_and] at hok
    obtain ⟨hin, hdue, hne, hlimit⟩ := hok
    rw [machineStep_trap arch hin] at hpop
    have hsched := fun ht => yieldOrTick_cases arch m (t := t) ht frame
    have hswitch : ∃ j, m.SwitchesTo arch t j (arch.trapStep m t frame) ∧
        arch.pushes m (.trap t frame) = none ∧ m.returns (.trap t frame) = false := by
      cases t with
      | svcYield | timer =>
        rcases hsched (by simp) with ⟨hnot, -⟩ | ⟨-, j, hsw⟩
        · exact absurd hdue hnot
        · exact ⟨j, hsw, rfl, rfl⟩
      | _ => obtain ⟨s, now, pre, hs, -⟩ := hdue; cases hs
    obtain ⟨j, hsw, hp, hr⟩ := hswitch
    obtain ⟨sched, ticks, heq⟩ := hsw.eq
    have hel0 : (arch.trapStep m t frame).inEl0 = true := by
      have hnot : (decide (t = .timer) && m.sched.limitReached true) = false := by
        by_cases htimer : t = .timer
        · simp [htimer, Bool.eq_false_iff.2 (hlimit htimer)]
        · simp [htimer]
      rw [heq]
      simp [Machine.inEl0, hnot]
    have hown := hpop.own hel0
    rw [hsw.current] at hown
    -- the new task has nothing open
    have hnone : arch.unreturned ((m, .trap t frame) :: h) (some j) = [] := by
      simp only [Arch.unreturned]
      rw [if_neg hsw.other, hm.owner hin, if_neg (Ne.symm hsw.other)]
    rw [hnone, Arch.openFrames, follow_other hp hr, List.head?_nil, List.head?_eq_none_iff] at hown
    have hmap := hm.stack
    rw [hown] at hmap
    exact hne hmap.symm
  | _ => exact he.elim

end

/-- **Every return pops its own task's frame**, along a run of calls, returns, yields and ticks
from depth 0, exactly if no task is switched to while a call is open. -/
theorem returns_pop_own_frames_iff (arch : Arch) {m₀ : Machine} (h0 : m₀.stack = []) {h : MachineHistory} {m : Machine}
    (r : Run (fun _ e => TaskTrap e) arch.machineStep m₀ h m) :
    Always (PopsOwnFrame arch) h m ↔ ∀ p ∈ h, SwitchesUnwound p.1 p.2 := by
  have hstart : Owned arch [] m₀ := ⟨h0.symm, fun _ o => by simp [Arch.unreturned, Arch.openFrames]⟩
  exact r.always_iff hstart (fun _ _ hm => hm.popsOwnFrame) (fun _ _ _ he hok hm => hm.step he hok)
    (fun _ _ _ he hok hm => hm.not_popsOwnFrame he hok)

/-- The camera calls the display, gets back, and hands over to the display's task and back. -/
def unwoundSwitches : List MachineEvent :=
  [.trap (.svcCall .sameLayer) callDisplay, .trap .svcReturn callDisplay, .trap .svcYield callDisplay,
    .trap .svcYield callDisplay]

theorem returns_pop_own_frames_iff_yield :
    Always (PopsOwnFrame boardArch) (traceFrom boardArch.machineStep [] twoTaskRun.2 unwoundSwitches).1
      (traceFrom boardArch.machineStep [] twoTaskRun.2 unwoundSwitches).2 := by
  have r : Run (fun _ e => TaskTrap e) boardArch.machineStep twoTaskRun.2
      (traceFrom boardArch.machineStep [] twoTaskRun.2 unwoundSwitches).1
      (traceFrom boardArch.machineStep [] twoTaskRun.2 unwoundSwitches).2 :=
    Run.start.trace ⟨trivial, trivial, trivial, trivial, trivial⟩
  have hunwound : Admits SwitchesUnwound boardArch.machineStep twoTaskRun.2 unwoundSwitches := by
    refine ⟨?_, ?_, ?_, ?_, trivial⟩
    · exact fun _ _ => Or.inl (by decide +kernel)
    · rintro - ⟨s, now, pre, hs, -⟩
      cases hs
    · exact fun _ _ => Or.inl (by decide +kernel)
    · exact fun _ _ => Or.inl (by decide +kernel)
  exact (returns_pop_own_frames_iff boardArch (by decide +kernel) r).2 (hunwound.history (by simp))

/-- The camera is switched out inside its call of the display. -/
def switchInsideCall : List MachineEvent :=
  [.trap (.svcCall .sameLayer) callDisplay, .trap .svcYield callDisplay]

/-- There, a return of the other task would pop the camera's frame. -/
theorem switch_inside_call_shares_frames :
    ¬ ∀ (arch : Arch) h₀ m₀, Run anyStep arch.machineStep arch.machineBoot h₀ m₀ → m₀.stack = [] →
      ∀ h m, Run (fun _ e => TaskTrap e) arch.machineStep m₀ h m → Always (PopsOwnFrame arch) h m := by
  intro hall
  have r : Run (fun _ e => TaskTrap e) boardArch.machineStep twoTaskRun.2
      (traceFrom boardArch.machineStep [] twoTaskRun.2 switchInsideCall).1
      (traceFrom boardArch.machineStep [] twoTaskRun.2 switchInsideCall).2 :=
    Run.start.trace ⟨trivial, trivial, trivial⟩
  have hpops := hall boardArch twoTaskRun.1 twoTaskRun.2 (Run.start.trace (admits_anyStep _ _)) (by decide +kernel) _ _ r
  exact absurd (hpops.1.own (by decide +kernel)) (by decide +kernel)

end Lettuce
