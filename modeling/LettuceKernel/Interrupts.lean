import LettuceKernel.Cpu
import LettuceKernel.Lib.Run
/-!
# Interrupts (`gic.c`, `timer.c`, the IRQ handlers of `cpu.c`)

| here | there |
| --- | --- |
| `Irqs.acknowledge`, `Irqs.endOfInterrupt` | `lettuce_gic_acknowledge` (gic.c:70), `lettuce_gic_end_of_interrupt` (gic.c:75) |
| `Irqs.timerIrqHandler`, `rearm` | `lettuce_timer_irq_handler` (timer.c:75), `lettuce_timer_rearm` (:53) |
| `timerInit`, `timerDisable` | `lettuce_timer_init` (timer.c:35), `lettuce_timer_disable` (:63) |
| `irqEl1Handler`, `irqLowerElHandler` | cpu.c:576, :590 |

Between the read of GICC_IAR and the write of GICC_EOIR an interrupt is active and the CPU interface signals no other (all
have one priority). A tick that reaches the preemption limit leaves the handler by `lettuce_el0_resume_kernel` and never comes
back to its own end-of-interrupt, so `do_schedule` writes one first (scheduler.c:210). The GIC answers with an
identifier that is pending, or with 1023. A write of CNTV_TVAL starts the countdown and takes the timer's
interrupt back; when the countdown ends the interrupt is pending. Test 22 calls `lettuce_timer_irq_handler` itself, six times
(main.c:820): these calls advance the tick counter without an interrupt and are no events here.
-/

namespace Lettuce

open Runs

/-- `GIC_INTID_VTIMER` and `GIC_SPURIOUS_INTID` (gic.h:23). -/
def intidVtimer : BitVec 32 := 27
def spuriousIntid : BitVec 32 := 1023

/-- The ten bits of an identifier. -/
def intidBits (v : BitVec 32) : BitVec 32 := v &&& 0x3ff

/-- The machine, the CPU interface of the GIC, and the virtual timer with the variables of timer.c. -/
structure Irqs where
  machine : Machine
  pending : List (BitVec 32)
  active : List (BitVec 32)
  /-- GICC_EOIR was written with another identifier than the one that is active. -/
  faulty : Bool
  interval : BitVec 64
  enabled : Bool
  /-- The countdown runs. -/
  armed : Bool
  /-- Timer interrupts acknowledged since `lettuce_timer_init`. -/
  taken : Nat

inductive IrqEvent where
  | machine (e : MachineEvent)
  | timerInit (hz : BitVec 32) (frequency : BitVec 64)
  | timerDisable
  | raise (intid : BitVec 32)
  | irqEl1 (iar : BitVec 32)
  | irqLowerEl (iar : BitVec 32) (frame : TrapFrame)

namespace Irqs

/-- Reading GICC_IAR makes the interrupt active. -/
def acknowledge (s : Irqs) (iar : BitVec 32) : Irqs :=
  if intidBits iar = spuriousIntid then s
  else
    { s with
      pending := s.pending.filter (· ≠ intidBits iar)
      active := intidBits iar :: s.active
      taken := if intidBits iar = intidVtimer then s.taken + 1 else s.taken }

def endOfInterrupt (s : Irqs) (intid : BitVec 32) : Irqs :=
  match s.active with
  | top :: rest => if top = intidBits intid then { s with active := rest } else { s with faulty := true }
  | [] => { s with faulty := true }

/-- Writing CNTV_TVAL. -/
def countdown (s : Irqs) : Irqs := { s with armed := true, pending := s.pending.filter (· ≠ intidVtimer) }

def rearm (s : Irqs) : Irqs := if s.enabled && decide (s.interval > 0) then s.countdown else s

def timerIrqHandler (s : Irqs) : Irqs :=
  rearm { s with machine := { s.machine with timerTicks := s.machine.timerTicks + 1 } }

def timerInit (s : Irqs) (hz : BitVec 32) (frequency : BitVec 64) : Irqs :=
  countdown { s with
    machine := { s.machine with timerTicks := 0 }
    interval := frequency / (if hz = 0 then 100#32 else hz).setWidth 64
    enabled := true
    taken := 0 }

def timerDisable (s : Irqs) : Irqs :=
  { s with enabled := false, armed := false, pending := s.pending.filter (· ≠ intidVtimer) }

def irqEl1Handler (s : Irqs) (iar : BitVec 32) : Irqs :=
  let s := s.acknowledge iar
  let s := if intidBits iar = intidVtimer then s.timerIrqHandler else s
  if intidBits iar ≠ spuriousIntid then s.endOfInterrupt (intidBits iar) else s

end Irqs

/-- `do_schedule` ends in `lettuce_el0_resume_kernel`. -/
def ScheduleResult.resumesKernel (r : ScheduleResult) : Bool :=
  match r.handoff with
  | some handoff => handoff.resumeKernel
  | none => false

namespace Arch

variable (arch : Arch)

def irqLowerElHandler (s : Irqs) (iar : BitVec 32) (frame : TrapFrame) : Irqs :=
  let intid := intidBits iar
  let s := s.acknowledge iar
  if intid = intidVtimer then
    let s := s.timerIrqHandler
    if s.machine.sched.active && decide (s.machine.preemptDisableCount = 0) then
      let r := schedulerTick s.machine.sched s.machine.timerTicks (some frame)
      let s := { s with machine := arch.scheduled s.machine frame r }
      if r.resumesKernel then s.endOfInterrupt intidVtimer else s.endOfInterrupt intid
    else Irqs.endOfInterrupt { s with machine := { s.machine with exec := .el0 frame } } intid
  else
    let s := { s with machine := { s.machine with exec := .el0 frame } }
    if intid ≠ spuriousIntid then s.endOfInterrupt intid else s

def irqStep (s : Irqs) : IrqEvent → Irqs
  | .machine e => { s with machine := arch.machineStep s.machine e }
  | .timerInit hz frequency => match s.machine.exec with
    | .kernel _ => s.timerInit hz frequency
    | _ => s
  | .timerDisable => match s.machine.exec with
    | .kernel _ => s.timerDisable
    | _ => s
  | .raise intid => { s with pending := intid :: s.pending, armed := if intid = intidVtimer then false else s.armed }
  | .irqEl1 iar => match s.machine.exec with
    | .kernel _ => s.irqEl1Handler iar
    | _ => s
  | .irqLowerEl iar frame => if s.machine.inEl0 then arch.irqLowerElHandler s iar frame else s

/-- Nothing pending, the timer off. -/
def irqBoot : Irqs where
  machine := arch.machineBoot
  pending := []
  active := []
  faulty := false
  interval := 0
  enabled := false
  armed := false
  taken := 0

end Arch

/-- What the GIC may answer: something pending, if nothing is active; 1023 if it has nothing to signal. -/
def Irqs.Answers (s : Irqs) (iar : BitVec 32) : Prop :=
  (s.active = [] ∧ intidBits iar ∈ s.pending) ∨ (intidBits iar = spuriousIntid ∧ (s.active ≠ [] ∨ s.pending = []))

/-- Interrupts come through the handlers, the timer's when its countdown ends. -/
def IrqOk (s : Irqs) : IrqEvent → Prop
  | .machine (.trap t _) => t ≠ .timer
  | .machine .irqEl1 => False
  | .machine .timerInit => False
  | .machine _ => True
  | .raise intid => intid.toNat < 1020 ∧ (intid = intidVtimer → s.enabled = true)
  | .irqEl1 iar => s.Answers iar
  | .irqLowerEl iar _ => s.Answers iar
  | _ => True

/-- Nothing is left active, and the timer counts down or waits to be taken. -/
structure Irqs.Settled (s : Irqs) : Prop where
  active : s.active = []
  correct : s.faulty = false
  identifiers : ∀ i ∈ s.pending, i.toNat < 1020
  ticks : s.machine.timerTicks = BitVec.ofNat 64 s.taken
  alive : s.enabled = true → s.interval > 0 → s.armed = true ∨ intidVtimer ∈ s.pending

/-! ## The tick counter -/

section
variable {arch : Arch} {m : Machine}

theorem scheduled_timerTicks (frame : TrapFrame) (r : ScheduleResult) : (arch.scheduled m frame r).timerTicks = m.timerTicks := by
  unfold Arch.scheduled
  split <;> rfl

theorem trapStep_timerTicks {t : Trap} (ht : t ≠ .timer) (frame : TrapFrame) : (arch.trapStep m t frame).timerTicks = m.timerTicks := by
  cases t with
  | svcReturn =>
    simp only [Arch.trapStep]
    cases hstack : m.stack with
    | nil => rw [svcReturn_nil arch hstack]
    | cons f rest => rw [svcReturn_cons arch hstack]
  | svcCall kind =>
    simp only [Arch.trapStep]
    rcases svcCall_cases arch m kind frame with ⟨-, status, heq⟩ | ⟨-, r, -, -, heq⟩
    · rw [heq]
    · rw [heq]
  | svcYield => exact scheduled_timerTicks frame _
  | timer => exact absurd rfl ht
  | dataAbort =>
    simp only [Arch.trapStep, Arch.dataAbort]
    split <;> rfl
  | sysregTrap =>
    simp only [Arch.trapStep, Arch.sysregTrap]
    split <;> rfl
  | fatal => rfl

/-- Only the timer's interrupt and `lettuce_timer_init` change the counter. -/
theorem machineStep_timerTicks {s : Irqs} {e : MachineEvent} (hok : IrqOk s (.machine e)) :
    (arch.machineStep m e).timerTicks = m.timerTicks := by
  unfold Arch.machineStep
  split
  · cases e with
    | sched e =>
      simp only [Arch.kernelStep]
      split <;> rfl
    | preemptEnable =>
      simp only [Arch.kernelStep]
      split <;> rfl
    | irqEl1 => exact absurd hok id
    | timerInit => exact absurd hok id
    | _ => rfl
  · split
    · exact trapStep_timerTicks hok _
    · rfl
  · rfl

end

/-! ## One interrupt -/

theorem intidBits_idem (v : BitVec 32) : intidBits (intidBits v) = intidBits v := by
  rw [intidBits, intidBits, BitVec.and_assoc]
  rfl

section
variable {s : Irqs} {iar : BitVec 32}

/-- With nothing active the answer is spurious exactly if nothing is pending. -/
theorem Irqs.Settled.answer (h : s.Settled) (ha : s.Answers iar) :
    (intidBits iar ∈ s.pending ∧ intidBits iar ≠ spuriousIntid) ∨ (intidBits iar = spuriousIntid ∧ s.pending = []) := by
  rcases ha with ⟨-, hmem⟩ | ⟨hspurious, hactive | hnone⟩
  · refine Or.inl ⟨hmem, fun heq => ?_⟩
    have hlt := h.identifiers _ hmem
    rw [heq] at hlt
    exact absurd hlt (by decide)
  · exact absurd h.active hactive
  · exact Or.inr ⟨hspurious, hnone⟩

/-- The end of the interrupt that was acknowledged last. -/
theorem endOfInterrupt_top {rest : List (BitVec 32)} (hactive : s.active = intidBits iar :: rest) :
    s.endOfInterrupt (intidBits iar) = { s with active := rest } := by
  simp only [Irqs.endOfInterrupt, hactive, intidBits_idem, if_true]

theorem Irqs.timerIrqHandler_fields (s : Irqs) : s.timerIrqHandler.active = s.active ∧ s.timerIrqHandler.faulty = s.faulty ∧
    s.timerIrqHandler.machine = { s.machine with timerTicks := s.machine.timerTicks + 1 } ∧
    s.timerIrqHandler.taken = s.taken ∧ s.timerIrqHandler.enabled = s.enabled ∧ s.timerIrqHandler.interval = s.interval := by
  unfold Irqs.timerIrqHandler Irqs.rearm Irqs.countdown
  split <;> exact ⟨rfl, rfl, rfl, rfl, rfl, rfl⟩

theorem Irqs.timerIrqHandler_pending {i : BitVec 32} (hi : i ∈ s.timerIrqHandler.pending) : i ∈ s.pending := by
  unfold Irqs.timerIrqHandler Irqs.rearm Irqs.countdown at hi
  split at hi
  · exact List.mem_of_mem_filter hi
  · exact hi

theorem Irqs.timerIrqHandler_armed (henabled : s.enabled = true) (hinterval : s.interval > 0) : s.timerIrqHandler.armed = true := by
  simp only [Irqs.timerIrqHandler, Irqs.rearm, henabled, hinterval, decide_true, Bool.and_self, if_true, Irqs.countdown]

/-- What an acknowledged interrupt other than the timer's does to the rest. -/
theorem Irqs.Settled.acknowledge_other (h : s.Settled) (hreal : intidBits iar ≠ spuriousIntid) (hother : intidBits iar ≠ intidVtimer) :
    Irqs.Settled { s.acknowledge iar with active := [] } := by
  simp only [Irqs.acknowledge, if_neg hreal, if_neg hother]
  refine ⟨rfl, h.correct, fun i hi => h.identifiers i (List.mem_of_mem_filter hi), h.ticks, fun henabled hinterval => ?_⟩
  exact (h.alive henabled hinterval).imp_right fun hmem => List.mem_filter.2 ⟨hmem, by simp only [Ne.symm hother, ne_eq, not_false_eq_true, decide_true]⟩

theorem Irqs.acknowledge_active (hreal : intidBits iar ≠ spuriousIntid) :
    (s.acknowledge iar).active = intidBits iar :: s.active := by
  rw [Irqs.acknowledge, if_neg hreal]

/-- The timer's interrupt: one tick more, and the countdown runs again. -/
theorem Irqs.Settled.acknowledge_timer (h : s.Settled) (htimer : intidBits iar = intidVtimer) :
    Irqs.Settled { (s.acknowledge iar).timerIrqHandler with active := [] } := by
  have hreal : intidBits iar ≠ spuriousIntid := by rw [htimer]; decide
  have hack : s.acknowledge iar = { s with
      pending := s.pending.filter (· ≠ intidBits iar)
      active := intidBits iar :: s.active
      taken := s.taken + 1 } := by rw [Irqs.acknowledge, if_neg hreal, if_pos htimer]
  generalize s.acknowledge iar = t at hack
  obtain ⟨-, hfaulty, hmachine, htaken, henabled, hinterval⟩ := t.timerIrqHandler_fields
  refine ⟨rfl, ?_, fun i hi => ?_, ?_, fun he hi => ?_⟩
  · exact hfaulty.trans (hack ▸ h.correct)
  · have hmem := Irqs.timerIrqHandler_pending hi
    rw [hack] at hmem
    exact h.identifiers i (List.mem_of_mem_filter hmem)
  · show t.timerIrqHandler.machine.timerTicks = BitVec.ofNat 64 t.timerIrqHandler.taken
    rw [hmachine, htaken, hack]
    show s.machine.timerTicks + 1 = BitVec.ofNat 64 (s.taken + 1)
    rw [h.ticks, BitVec.ofNat_add]
    rfl
  · exact Or.inl (Irqs.timerIrqHandler_armed (henabled ▸ he) (hinterval ▸ hi))

/-- A change of the machine that leaves the ticks. -/
theorem Irqs.Settled.withMachine (h : s.Settled) {m : Machine} (hm : m.timerTicks = s.machine.timerTicks) :
    Irqs.Settled { s with machine := m } :=
  ⟨h.active, h.correct, h.identifiers, hm.trans h.ticks, h.alive⟩

end

/-- After the handler: what the acknowledged interrupt leaves. -/
def Irqs.served (s : Irqs) (iar : BitVec 32) : Irqs :=
  { (if intidBits iar = intidVtimer then (s.acknowledge iar).timerIrqHandler else s.acknowledge iar) with active := [] }

section
variable {arch : Arch} {s : Irqs} {iar : BitVec 32}

theorem Irqs.Settled.acknowledge_spurious (h : s.Settled) (hspurious : intidBits iar = spuriousIntid) : s.served iar = s := by
  have hother : intidBits iar ≠ intidVtimer := by rw [hspurious]; decide
  rw [Irqs.served, if_neg hother, Irqs.acknowledge, if_pos hspurious, ← h.active]

theorem Irqs.Settled.served (h : s.Settled) (ha : s.Answers iar) : (s.served iar).Settled := by
  rcases h.answer ha with ⟨-, hreal⟩ | ⟨hspurious, -⟩
  · unfold Irqs.served
    split
    · next htimer => exact h.acknowledge_timer htimer
    · next hother => exact h.acknowledge_other hreal hother
  · rw [h.acknowledge_spurious hspurious]
    exact h

theorem irqEl1Handler_eq (h : s.Settled) (ha : s.Answers iar) : s.irqEl1Handler iar = s.served iar := by
  simp only [Irqs.irqEl1Handler]
  rcases h.answer ha with ⟨-, hreal⟩ | ⟨hspurious, -⟩
  · rw [if_pos hreal]
    have hactive := Irqs.acknowledge_active (s := s) hreal
    rw [h.active] at hactive
    unfold Irqs.served
    split
    · exact endOfInterrupt_top ((Irqs.timerIrqHandler_fields _).1.trans hactive)
    · exact endOfInterrupt_top hactive
  · have hother : intidBits iar ≠ intidVtimer := by rw [hspurious]; decide
    rw [if_neg (not_not_intro hspurious), if_neg hother, h.acknowledge_spurious hspurious, Irqs.acknowledge, if_pos hspurious]

theorem irqLowerEl_timerTicks (m : Machine) (frame : TrapFrame) :
    (arch.irqLowerEl m frame).timerTicks = m.timerTicks + 1 := by
  simp only [Arch.irqLowerEl]
  split
  · exact scheduled_timerTicks frame _
  · rfl

/-- The handler takes the timer's step of the machine for the timer's interrupt, and returns to the same registers for any
other. Both ends of a tick write the same identifier. -/
theorem irqLowerElHandler_eq (h : s.Settled) (ha : s.Answers iar) (frame : TrapFrame) :
    arch.irqLowerElHandler s iar frame =
      { s.served iar with
        machine := if intidBits iar = intidVtimer then arch.trapStep s.machine .timer frame
          else { s.machine with exec := .el0 frame } } := by
  simp only [Arch.irqLowerElHandler]
  by_cases htimer : intidBits iar = intidVtimer
  · have hreal : intidBits iar ≠ spuriousIntid := by rw [htimer]; decide
    have hmachine : (s.acknowledge iar).machine = s.machine := by rw [Irqs.acknowledge, if_neg hreal]
    have hactive := Irqs.acknowledge_active (s := s) hreal
    rw [h.active] at hactive
    rw [if_pos htimer, if_pos htimer, Irqs.served, if_pos htimer]
    obtain ⟨hkept, -, hticked, -⟩ := (s.acknowledge iar).timerIrqHandler_fields
    generalize (s.acknowledge iar).timerIrqHandler = t at hkept hticked
    rw [hmachine] at hticked
    rw [hactive] at hkept
    have hlower : arch.trapStep s.machine .timer frame =
        if (t.machine.sched.active && decide (t.machine.preemptDisableCount = 0)) = true then
          arch.scheduled t.machine frame (schedulerTick t.machine.sched t.machine.timerTicks (some frame))
        else { t.machine with exec := .el0 frame } := by
      rw [hticked]
      rfl
    rw [hlower, ← htimer]
    split
    · rw [ite_self]
      exact endOfInterrupt_top hkept
    · exact endOfInterrupt_top hkept
  · rw [if_neg htimer, if_neg htimer]
    rcases h.answer ha with ⟨-, hreal⟩ | ⟨hspurious, -⟩
    · have hactive := Irqs.acknowledge_active (s := s) hreal
      rw [h.active] at hactive
      have hmachine : (s.acknowledge iar).machine = s.machine := by rw [Irqs.acknowledge, if_neg hreal]
      rw [if_pos hreal, Irqs.served, if_neg htimer, ← hmachine]
      exact endOfInterrupt_top hactive
    · rw [if_neg (not_not_intro hspurious), h.acknowledge_spurious hspurious, Irqs.acknowledge, if_pos hspurious]

/-! ## Runs -/

theorem Irqs.Settled.step {e : IrqEvent} (h : s.Settled) (hok : IrqOk s e) : (arch.irqStep s e).Settled := by
  cases e with
  | machine e => exact h.withMachine (machineStep_timerTicks hok)
  | timerInit hz frequency =>
    simp only [Arch.irqStep]
    split
    · exact ⟨h.active, h.correct, fun i hi => h.identifiers i (List.mem_of_mem_filter hi), rfl, fun _ _ => Or.inl rfl⟩
    · exact h
  | timerDisable =>
    simp only [Arch.irqStep]
    split
    · exact ⟨h.active, h.correct, fun i hi => h.identifiers i (List.mem_of_mem_filter hi), h.ticks,
        fun henabled => absurd henabled Bool.false_ne_true⟩
    · exact h
  | raise intid =>
    refine ⟨h.active, h.correct, fun i hi => ?_, h.ticks, fun henabled hinterval => ?_⟩
    · rcases List.mem_cons.1 hi with rfl | hmem
      · exact hok.1
      · exact h.identifiers i hmem
    · by_cases htimer : intid = intidVtimer
      · exact Or.inr (List.mem_cons.2 (Or.inl htimer.symm))
      · simp only [Arch.irqStep, if_neg htimer]
        exact (h.alive henabled hinterval).imp_right (List.mem_cons_of_mem _)
  | irqEl1 iar =>
    simp only [Arch.irqStep]
    split
    · rw [irqEl1Handler_eq h hok]
      exact h.served hok
    · exact h
  | irqLowerEl iar frame =>
    simp only [Arch.irqStep]
    split
    · rw [irqLowerElHandler_eq h hok]
      refine (h.served hok).withMachine ?_
      unfold Irqs.served
      split
      · next htimer =>
        have hreal : intidBits iar ≠ spuriousIntid := by rw [htimer]; decide
        show (arch.irqLowerEl s.machine frame).timerTicks = (s.acknowledge iar).timerIrqHandler.machine.timerTicks
        rw [irqLowerEl_timerTicks, (Irqs.timerIrqHandler_fields _).2.2.1, Irqs.acknowledge, if_neg hreal]
      · rw [Irqs.acknowledge]
        split <;> rfl
    · exact h

/-- In every run each interrupt that was acknowledged has been ended, with its own identifier, also by a tick that goes
back to the kernel: so the next one is never held back. The counter of timer.c counts the timer's interrupts since
`lettuce_timer_init`, and an enabled timer counts down or its interrupt waits. -/
theorem interrupts_ended {h : List (Irqs × IrqEvent)} (r : Run IrqOk arch.irqStep arch.irqBoot h s) :
    s.active = [] ∧ s.faulty = false ∧ s.machine.timerTicks = BitVec.ofNat 64 s.taken ∧
      (s.enabled = true → s.interval > 0 → s.armed = true ∨ intidVtimer ∈ s.pending) ∧
      ∀ iar frame, s.Answers iar →
        (s.pending ≠ [] → intidBits iar ∈ s.pending) ∧
        (arch.irqLowerElHandler s iar frame).machine =
          if intidBits iar = intidVtimer then arch.trapStep s.machine .timer frame
          else { s.machine with exec := .el0 frame } := by
  have hboot : Irqs.Settled arch.irqBoot :=
    ⟨rfl, rfl, fun _ hi => absurd hi List.not_mem_nil, rfl, fun he => absurd he Bool.false_ne_true⟩
  have hs : s.Settled := r.invariant hboot fun _ _ hok hs => hs.step hok
  refine ⟨hs.active, hs.correct, hs.ticks, hs.alive, fun iar frame ha => ⟨fun hsome => ?_, ?_⟩⟩
  · rcases hs.answer ha with ⟨hmem, -⟩ | ⟨-, hnone⟩
    · exact hmem
    · exact absurd hnone hsome
  · rw [irqLowerElHandler_eq hs ha]

end

/-- The timer is set to 100 Hz, and its interrupt comes while a service runs at EL0. -/
def tickRun : List (Irqs × IrqEvent) × Irqs :=
  traceFrom boardArch.irqStep [] boardArch.irqBoot
    [.timerInit 0 62500000, .machine (.runEl0Service 0x41050000 0 10 ⟨fun _ => 0, 0, 0, 0, 0⟩), .raise intidVtimer]

theorem interrupts_ended_tick :
    tickRun.2.active = [] ∧ tickRun.2.armed = false ∧
      (boardArch.irqLowerElHandler tickRun.2 intidVtimer ⟨fun _ => 0, 0, 0, 0, 0⟩).machine.timerTicks = 1 := by
  have ha : Admits IrqOk boardArch.irqStep boardArch.irqBoot
      [.timerInit 0 62500000, .machine (.runEl0Service 0x41050000 0 10 ⟨fun _ => 0, 0, 0, 0, 0⟩), .raise intidVtimer] :=
    ⟨trivial, trivial, ⟨by decide, fun _ => rfl⟩, trivial⟩
  have r : Run IrqOk boardArch.irqStep boardArch.irqBoot tickRun.1 tickRun.2 := Run.start.trace ha
  have hwaits : intidBits intidVtimer ∈ tickRun.2.pending := List.mem_cons_self
  have htaken : tickRun.2.taken = 0 := rfl
  have harmed : tickRun.2.armed = false := rfl
  generalize tickRun.1 = h, tickRun.2 = s at r hwaits htaken harmed ⊢
  obtain ⟨hactive, -, hticks, -, hhandler⟩ := interrupts_ended r
  have hmachine := (hhandler intidVtimer ⟨fun _ => 0, 0, 0, 0, 0⟩ (Or.inl ⟨hactive, hwaits⟩)).2
  have htimer : intidBits intidVtimer = intidVtimer := rfl
  rw [if_pos htimer] at hmachine
  refine ⟨hactive, harmed, ?_⟩
  rw [hmachine]
  refine (irqLowerEl_timerTicks s.machine _).trans ?_
  rw [hticks, htaken]
  rfl

end Lettuce
