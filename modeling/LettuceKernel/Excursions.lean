import LettuceKernel.Cpu
/-!
# The context stack at the end of an excursion

An EL0 excursion ends by `lettuce_el0_resume_kernel`: from SVC #0 with no frame left
(cpu.c:331), from an expected data abort (:512), from an expected system-register trap (:539)
or from the preemption limit (scheduler.c:211). Only the first looks at the context stack; the
other three leave the frames of open calls on it, and the next excursion starts above them.
`excursions_end_clean_iff` says that those three, taken with a call open, are the only way to
get there.
-/

namespace Lettuce

open Runs

/-- The calls of the current excursion that have not returned. -/
def openCalls : MachineHistory → Nat
  | [] => 0
  | (m, .runEl0Service _ _ _ _) :: h => if m.inEl0 then openCalls h else 0
  | (m, .trap .svcReturn _) :: h => if m.inEl0 then openCalls h - 1 else openCalls h
  | (m, .trap (.svcCall kind) frame) :: h =>
    if m.inEl0 && m.accepts kind frame then openCalls h + 1 else openCalls h
  | _ :: h => openCalls h

/-- The kernel finds the stack empty, and EL0 finds on it the open calls of its own excursion, so
that its last SVC #0 goes to the kernel. -/
structure CleanStack (h : MachineHistory) (m : Machine) : Prop where
  kernel : ∀ status, m.exec = .kernel status → m.stack = []
  el0 : m.inEl0 = true → m.stack.length = openCalls h

/-- No excursion is cut short while a call is open: an expected abort or trap comes with the
stack empty, and so does the tick whose switch reaches the preemption limit. -/
def EndsClean (m : Machine) : MachineEvent → Prop
  | .trap .dataAbort _ => m.inEl0 = true → m.expectingFault = true → m.stack = []
  | .trap .sysregTrap _ => m.inEl0 = true → m.expectingSysregTrap = true → m.stack = []
  | .trap .timer frame =>
    m.inEl0 = true → m.SwitchDue .timer frame → m.sched.limitReached true = true → m.stack = []
  | _ => True

section
variable {arch : Arch} {h : MachineHistory} {m m' : Machine}

theorem inEl0_of_exec {frame : TrapFrame} (h : m.exec = .el0 frame) : m.inEl0 = true := inEl0_eq_true.2 ⟨frame, h⟩

/-- A step that stays in EL0. -/
theorem CleanStack.of_el0 {frame : TrapFrame} (hexec : m'.exec = .el0 frame) (hlen : m'.stack.length = openCalls h) :
    CleanStack h m' := by
  refine ⟨fun status hk => ?_, fun _ => hlen⟩
  rw [hexec] at hk
  cases hk

/-- A step that goes back to the kernel. -/
theorem CleanStack.of_kernel {status : Reg} (hexec : m'.exec = .kernel status) (hstack : m'.stack = []) :
    CleanStack h m' := by
  refine ⟨fun _ _ => hstack, fun hin => ?_⟩
  simp [Machine.inEl0, hexec] at hin

/-- A step that stops the machine. -/
theorem CleanStack.of_halted (hexec : m'.exec = .halted) : CleanStack h m' := by
  refine ⟨fun status hk => ?_, fun hin => ?_⟩
  · rw [hexec] at hk
    cases hk
  · simp [Machine.inEl0, hexec] at hin

theorem CleanStack.kernelStep (hm : CleanStack h m) {status : Reg} (hk : m.exec = .kernel status) (e : MachineEvent) :
    CleanStack ((m, e) :: h) (arch.kernelStep m e) := by
  have hstack := hm.kernel status hk
  have hnot : m.inEl0 = false := by simp [Machine.inEl0, hk]
  cases e with
  | runEl0Service entryPc domain service regs =>
    refine CleanStack.of_el0 rfl ?_
    rw [kernelStep_stack, hstack]
    simp [openCalls, hnot]
  | _ =>
    exact CleanStack.of_kernel ((kernelStep_exec arch m (by rintro _ _ _ _ ⟨⟩)).trans hk)
      ((kernelStep_stack arch m _).trans hstack)

theorem CleanStack.switch (hm : CleanStack h m) (hin : m.inEl0 = true) {t : Trap} {j : Slot}
    (hsw : m.SwitchesTo arch t j m') (hclean : t = .timer → m.sched.limitReached true = true → m.stack = [])
    {e : MachineEvent} (hopen : openCalls ((m, e) :: h) = openCalls h) : CleanStack ((m, e) :: h) m' := by
  obtain ⟨sched, ticks, rfl⟩ := hsw.eq
  by_cases hlimit : (decide (t = .timer) && m.sched.limitReached true) = true
  · simp only [Bool.and_eq_true, decide_eq_true_eq] at hlimit
    exact CleanStack.of_kernel (if_pos (by simp [hlimit])) (hclean hlimit.1 hlimit.2)
  · exact CleanStack.of_el0 (if_neg hlimit) (hopen ▸ hm.el0 hin)

theorem CleanStack.trapStep (hm : CleanStack h m) (hin : m.inEl0 = true) {t : Trap} {frame : TrapFrame}
    (hok : EndsClean m (.trap t frame)) : CleanStack ((m, .trap t frame) :: h) (arch.trapStep m t frame) := by
  have hlen := hm.el0 hin
  cases t with
  | svcReturn =>
    simp only [Arch.trapStep]
    cases hstack : m.stack with
    | nil =>
      rw [svcReturn_nil arch hstack]
      exact CleanStack.of_kernel rfl hstack
    | cons f rest =>
      rw [svcReturn_cons arch hstack]
      refine CleanStack.of_el0 rfl ?_
      rw [hstack, List.length_cons] at hlen
      simp only [openCalls, hin, ↓reduceIte]
      omega
  | svcCall kind =>
    simp only [Arch.trapStep]
    rcases svcCall_cases arch m kind frame with ⟨hacc, status, heq⟩ | ⟨hacc, r, -, -, heq⟩
    · rw [heq]
      exact CleanStack.of_el0 rfl (by simp [openCalls, hacc, hlen])
    · rw [heq]
      exact CleanStack.of_el0 rfl (by simp [openCalls, hacc, hin, hlen])
  | svcYield =>
    rcases svcYield_cases arch m frame with ⟨-, hc⟩ | ⟨-, j, hsw⟩
    · obtain ⟨sched, ticks, heq⟩ := hc.eq
      simp only [Arch.trapStep, heq]
      exact CleanStack.of_el0 rfl hlen
    · exact hm.switch hin hsw (by rintro ⟨⟩) rfl
  | timer =>
    rcases irqLowerEl_cases arch m frame with ⟨-, hc⟩ | ⟨hdue, j, hsw⟩
    · obtain ⟨sched, ticks, heq⟩ := hc.eq
      simp only [Arch.trapStep, heq]
      exact CleanStack.of_el0 rfl hlen
    · exact hm.switch hin hsw (fun _ => hok hin hdue) rfl
  | dataAbort =>
    simp only [Arch.trapStep, Arch.dataAbort]
    split
    · rename_i hexp
      exact CleanStack.of_kernel rfl (hok hin hexp)
    · exact CleanStack.of_halted rfl
  | sysregTrap =>
    simp only [Arch.trapStep, Arch.sysregTrap]
    split
    · rename_i hexp
      exact CleanStack.of_kernel rfl (hok hin hexp)
    · exact CleanStack.of_halted rfl
  | fatal => exact CleanStack.of_halted rfl

theorem CleanStack.step (hm : CleanStack h m) {e : MachineEvent} (hok : EndsClean m e) :
    CleanStack ((m, e) :: h) (arch.machineStep m e) := by
  cases hexec : m.exec with
  | kernel status =>
    simp only [Arch.machineStep, hexec]
    exact hm.kernelStep hexec e
  | el0 regs =>
    have hin := inEl0_of_exec hexec
    cases e with
    | trap t frame =>
      rw [machineStep_trap arch hin]
      exact hm.trapStep hin hok
    | _ =>
      simp only [Arch.machineStep, hexec]
      exact CleanStack.of_el0 hexec (by simpa [openCalls, hin] using hm.el0 hin)
  | halted =>
    simp only [Arch.machineStep, hexec]
    exact CleanStack.of_halted hexec

/-- Each of the three exits, taken with a call open, leaves its frame behind. -/
theorem not_cleanStack_of_not_endsClean {e : MachineEvent} (hok : ¬ EndsClean m e) :
    ¬ CleanStack ((m, e) :: h) (arch.machineStep m e) := by
  intro hc
  cases e with
  | trap t frame =>
    cases t with
    | dataAbort =>
      simp only [EndsClean, Classical.not_imp] at hok
      obtain ⟨hin, hexp, hne⟩ := hok
      rw [machineStep_trap arch hin] at hc
      simp only [Arch.trapStep, Arch.dataAbort, hexp, ↓reduceIte] at hc
      exact hne (hc.kernel _ rfl)
    | sysregTrap =>
      simp only [EndsClean, Classical.not_imp] at hok
      obtain ⟨hin, hexp, hne⟩ := hok
      rw [machineStep_trap arch hin] at hc
      simp only [Arch.trapStep, Arch.sysregTrap, hexp, ↓reduceIte] at hc
      exact hne (hc.kernel _ rfl)
    | timer =>
      simp only [EndsClean, Classical.not_imp] at hok
      obtain ⟨hin, hdue, hlimit, hne⟩ := hok
      rw [machineStep_trap arch hin] at hc
      rcases irqLowerEl_cases arch m frame with ⟨hnot, -⟩ | ⟨-, j, hsw⟩
      · exact hnot hdue
      · obtain ⟨sched, ticks, heq⟩ := hsw.eq
        simp only [Arch.trapStep, heq, hlimit] at hc
        exact hne (hc.kernel _ rfl)
    | _ => exact hok trivial
  | _ => exact hok trivial

end

/-- **Excursions end with a clean stack**, along a run of the kernel and its EL0 excursions from
depth 0, exactly if none is cut short with a call open. -/
theorem excursions_end_clean_iff (arch : Arch) {m₀ : Machine} {status : Reg} (hk : m₀.exec = .kernel status)
    (h0 : m₀.stack = []) {h : MachineHistory} {m : Machine} (r : Run anyStep arch.machineStep m₀ h m) :
    Always CleanStack h m ↔ ∀ p ∈ h, EndsClean p.1 p.2 :=
  r.always_iff (CleanStack.of_kernel hk h0) (fun _ _ hc => hc) (fun _ _ _ _ hok hc => hc.step hok)
    (fun _ _ _ _ hok _ => not_cleanStack_of_not_endsClean hok)

/-- Two excursions of the camera: one with a call, and one that ends in an expected abort. -/
def twoExcursions : List MachineEvent :=
  boardSetUp domainC ++
    [.runEl0Service 0x41050200 domainA 10 callDisplay, .trap (.svcCall .sameLayer) callDisplay,
      .trap .svcReturn callDisplay, .trap .svcReturn callDisplay, .expectFault,
      .runEl0Service 0x41050200 domainA 10 callDisplay, .trap .dataAbort callDisplay]

theorem excursions_end_clean_iff_camera :
    Always CleanStack (traceFrom boardArch.machineStep [] boardArch.machineBoot twoExcursions).1
      (traceFrom boardArch.machineStep [] boardArch.machineBoot twoExcursions).2 := by
  have hclean : Admits EndsClean boardArch.machineStep boardArch.machineBoot twoExcursions := by
    refine ⟨trivial, trivial, trivial, trivial, trivial, trivial, trivial, trivial, trivial, trivial, trivial, trivial,
      trivial, trivial, ?_, trivial⟩
    exact fun _ _ => by decide +kernel
  exact (excursions_end_clean_iff boardArch rfl rfl (Run.start.trace (admits_anyStep _ _))).2
    (hclean.history (by simp))

/-- The display, called by the camera, takes the abort the kernel expects: the camera's frame is
still on the stack when the kernel goes on. -/
theorem abort_leaves_frames :
    ¬ ∀ (arch : Arch) h m, Run anyStep arch.machineStep arch.machineBoot h m →
      ∀ status, m.exec = .kernel status → m.stack = [] := by
  intro hall
  have hempty := hall boardArch _ _ (Run.start.trace (admits_anyStep _ (boardSetUp domainC ++
    [.expectFault, .runEl0Service 0x41050200 domainA 10 callDisplay, .trap (.svcCall .sameLayer) callDisplay,
      .trap .dataAbort callDisplay]))) _ rfl
  exact absurd hempty (by decide +kernel)

end Lettuce
