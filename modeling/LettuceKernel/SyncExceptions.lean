import LettuceKernel.Syscalls
/-!
# Synchronous exceptions (`cpu.c:213-567`, `mmu.c:656-731`)

| here | there |
| --- | --- |
| `Core`               | the machine, the services, and the static variables about expected exceptions |
| `exceptionClass`, `isDataAbort`, `svcImmediate` | the fields of ESR_EL1 |
| `Core.expect`        | `lettuce_mmu_expect_fault` (mmu.c:656), `lettuce_arch_expect_sysreg_trap` (:709), `lettuce_pac_expect_trap` (cpu.c:133) |
| `Core.handleFault`, `handleSysregTrap` | `lettuce_mmu_handle_fault` (mmu.c:695), `lettuce_arch_handle_sysreg_trap` (:720) |
| `Arch.syncEl1Handler`, `syncLowerElHandler` | cpu.c:213, :296, without the console |

Three exceptions can be announced: a data abort, a trapped system register, and a failed authentication at EL1. An
announced one is forgiven and ends the excursion, or skips the instruction at EL1; any other exception but an SVC halts the
machine. The address given to `lettuce_mmu_expect_fault` is stored and never compared.
-/

namespace Lettuce

open Runs

/-- The exceptions that can be announced. -/
inductive Watch where
  | dataAbort | sysregTrap | pacTrap
deriving DecidableEq, Repr

structure Core where
  machine : Machine
  services : Services
  pacExpectedTrap : Bool
  faultObserved : Bool
  sysregTrapObserved : Bool
  pacTrapObserved : Bool
  lastFaultEsr : Reg
  lastFaultFar : Reg
  lastFaultElr : Reg

/-- `(esr >> 26u) & 0x3fu` -/
def exceptionClass (esr : Reg) : Reg := esr >>> 26 &&& 0x3f

def isDataAbort (esr : Reg) : Bool := exceptionClass esr = 0x24 || exceptionClass esr = 0x25

/-- `(uint32_t)(esr & 0xffffu)` -/
def svcImmediate (esr : Reg) : BitVec 32 := (esr &&& 0xffff).setWidth 32

namespace Core

variable (s : Core)

def expecting : Watch → Bool
  | .dataAbort => s.machine.expectingFault
  | .sysregTrap => s.machine.expectingSysregTrap
  | .pacTrap => s.pacExpectedTrap

def observed : Watch → Bool
  | .dataAbort => s.faultObserved
  | .sysregTrap => s.sysregTrapObserved
  | .pacTrap => s.pacTrapObserved

def inKernel : Bool :=
  match s.machine.exec with
  | .kernel _ => true
  | _ => false

def expect : Watch → Core
  | .dataAbort =>
    { s with
      machine := { s.machine with expectingFault := true }
      faultObserved := false, lastFaultFar := 0, lastFaultEsr := 0, lastFaultElr := 0 }
  | .sysregTrap => { s with machine := { s.machine with expectingSysregTrap := true }, sysregTrapObserved := false }
  | .pacTrap => { s with pacExpectedTrap := true, pacTrapObserved := false }

def halt : Core := { s with machine := { s.machine with exec := .halted } }

/-- `lettuce_el0_resume_kernel` -/
def resumeKernel (status : Status) : Core := { s with machine := { s.machine with exec := .kernel status.code } }

def handleFault (esr far elr : Reg) : Core × Bool :=
  let s := { s with lastFaultEsr := esr, lastFaultFar := far, lastFaultElr := elr }
  if !s.machine.expectingFault then (s, false)
  else ({ s with machine := { s.machine with expectingFault := false }, faultObserved := true }, true)

def handleSysregTrap (esr elr : Reg) : Core × Bool :=
  let s := { s with lastFaultEsr := esr, lastFaultElr := elr }
  if !s.machine.expectingSysregTrap then (s, false)
  else ({ s with machine := { s.machine with expectingSysregTrap := false }, sysregTrapObserved := true }, true)

end Core

/-- The faulting instruction is skipped. -/
def TrapFrame.skip (frame : TrapFrame) : TrapFrame := { frame with elr := frame.elr + 4 }

namespace Arch

variable (arch : Arch) (s : Core) (esr far : Reg) (frame : TrapFrame)

def syncEl1Handler : Core × TrapFrame :=
  let r := if isDataAbort esr then s.handleFault esr far frame.elr else (s, false)
  if r.2 then (r.1, frame.skip)
  else if exceptionClass esr = 0x1c && r.1.pacExpectedTrap then
    ({ r.1 with pacTrapObserved := true, pacExpectedTrap := false }, frame.skip)
  else (r.1.halt, frame)

/-- The branches of an SVC (cpu.c:307-478). -/
def svcHandler : Core :=
  let imm := svcImmediate esr
  if imm = 0 then { s with machine := arch.svcReturn s.machine frame }
  else if imm = 1 then { s with machine := arch.svcCall s.machine .sameLayer frame }
  else if imm = 2 then { s with machine := arch.svcCall s.machine .crossLayer frame }
  else if imm = 3 then { s with machine := arch.svcCall s.machine .elevator frame }
  else if imm = 4 then { s with machine := arch.svcYield s.machine frame }
  else if imm = 5 then
    let r := arch.svcSyscall s.machine s.services frame
    { s with machine := r.1, services := r.2 }
  else s.halt

def syncLowerElHandler : Core :=
  if exceptionClass esr = 0x15 then arch.svcHandler s esr frame
  else if isDataAbort esr then
    let r := s.handleFault esr far frame.elr
    if r.2 then r.1.resumeKernel .aborted else r.1.halt
  else if exceptionClass esr = 0x18 ∨ exceptionClass esr = 0 then
    let r := s.handleSysregTrap esr frame.elr
    if r.2 then r.1.resumeKernel .denied else r.1.halt
  else s.halt

end Arch

inductive CoreEvent where
  | machine (e : MachineEvent)
  | expect (w : Watch)
  | syncEl1 (esr far : Reg) (frame : TrapFrame)
  | syncLowerEl (esr far : Reg) (frame : TrapFrame)

def Arch.coreStep (arch : Arch) (s : Core) : CoreEvent → Core
  | .machine e => { s with machine := arch.machineStep s.machine e }
  | .expect w => if s.inKernel then s.expect w else s
  | .syncEl1 esr far frame => if s.inKernel then (Arch.syncEl1Handler s esr far frame).1 else s
  | .syncLowerEl esr far frame => if s.machine.inEl0 then arch.syncLowerElHandler s esr far frame else s

/-- Synchronous exceptions and announcements come through their own events. -/
def CoreOk (_ : Core) : CoreEvent → Prop
  | .machine (.trap t _) => t = .timer
  | .machine .expectFault => False
  | .machine .expectSysregTrap => False
  | _ => True

def Arch.coreBoot (arch : Arch) (v : Services) : Core where
  machine := arch.machineBoot
  services := v
  pacExpectedTrap := false
  faultObserved := false
  sysregTrapObserved := false
  pacTrapObserved := false
  lastFaultEsr := 0
  lastFaultFar := 0
  lastFaultElr := 0

/-- The exception that an event brings before a handler that can forgive it. -/
def Core.trapped (s : Core) : CoreEvent → Option Watch
  | .syncEl1 esr _ _ =>
    if s.inKernel then
      if isDataAbort esr then some .dataAbort else if exceptionClass esr = 0x1c then some .pacTrap else none
    else none
  | .syncLowerEl esr _ _ =>
    if s.machine.inEl0 then
      if isDataAbort esr then some .dataAbort
      else if exceptionClass esr = 0x18 ∨ exceptionClass esr = 0 then some .sysregTrap
      else none
    else none
  | _ => none

def Announces (w : Watch) (s : Core) (e : CoreEvent) : Prop := s.inKernel = true ∧ e = .expect w

def Traps (w : Watch) (s : Core) (e : CoreEvent) : Prop := s.trapped e = some w

def Forgives (w : Watch) (s : Core) (e : CoreEvent) : Prop := s.trapped e = some w ∧ s.expecting w = true

/-! ## The flags of the machine -/

def Machine.watchFlags (m : Machine) : Bool × Bool := (m.expectingFault, m.expectingSysregTrap)

section
variable {arch : Arch} {m : Machine}

theorem scheduled_watchFlags (frame : TrapFrame) (r : ScheduleResult) : (arch.scheduled m frame r).watchFlags = m.watchFlags := by
  unfold Arch.scheduled
  split <;> rfl

theorem svcReturn_watchFlags (frame : TrapFrame) : (arch.svcReturn m frame).watchFlags = m.watchFlags := by
  cases hstack : m.stack with
  | nil => rw [svcReturn_nil arch hstack]; rfl
  | cons f rest => rw [svcReturn_cons arch hstack]; rfl

theorem svcCall_watchFlags (kind : GateKind) (frame : TrapFrame) : (arch.svcCall m kind frame).watchFlags = m.watchFlags := by
  rcases svcCall_cases arch m kind frame with ⟨-, status, heq⟩ | ⟨-, r, -, -, heq⟩ <;> rw [heq] <;> rfl

theorem setResult_watchFlags (value : Reg) : (m.setResult value).watchFlags = m.watchFlags := by
  unfold Machine.setResult
  split <;> rfl

theorem svcSyscall_watchFlags (v : Services) (frame : TrapFrame) : (arch.svcSyscall m v frame).1.watchFlags = m.watchFlags := by
  rcases svcSyscall_cases arch m v frame with ⟨-, heq⟩ | ⟨-, value, heq⟩
  · rw [heq]
    exact (setResult_watchFlags _).trans (scheduled_watchFlags frame _)
  · rw [heq]
    rfl

theorem irqLowerEl_watchFlags (frame : TrapFrame) : (arch.irqLowerEl m frame).watchFlags = m.watchFlags := by
  simp only [Arch.irqLowerEl]
  split
  · exact scheduled_watchFlags frame _
  · rfl

theorem machineStep_watchFlags {s : Core} {e : MachineEvent} (hok : CoreOk s (.machine e)) :
    (arch.machineStep m e).watchFlags = m.watchFlags := by
  unfold Arch.machineStep
  split
  · cases e with
    | sched e =>
      simp only [Arch.kernelStep]
      split <;> rfl
    | preemptEnable =>
      simp only [Arch.kernelStep]
      split <;> rfl
    | expectFault => exact absurd hok id
    | expectSysregTrap => exact absurd hok id
    | _ => rfl
  · split
    · obtain rfl := hok
      exact irqLowerEl_watchFlags _
    · rfl
  · rfl

end

/-! ## One event -/

section
variable {arch : Arch} {s : Core} {w : Watch} {e : CoreEvent}

/-- The flags of the three watches after `w` was taken by its handler. -/
structure Consumed (s s' : Core) (w : Watch) : Prop where
  expecting : ∀ w', s'.expecting w' = (s.expecting w' && decide (w' ≠ w))
  observed : ∀ w', s'.observed w' = (s.observed w' || (decide (w' = w) && s.expecting w))

theorem handleFault_consumed (s : Core) (esr far elr : Reg) :
    Consumed s (s.handleFault esr far elr).1 .dataAbort ∧ (s.handleFault esr far elr).2 = s.expecting .dataAbort := by
  cases hexpecting : s.machine.expectingFault <;> refine ⟨⟨fun w' => ?_, fun w' => ?_⟩, ?_⟩ <;> try cases w'
  all_goals simp [Core.handleFault, Core.expecting, Core.observed, hexpecting]

theorem handleSysregTrap_consumed (s : Core) (esr elr : Reg) :
    Consumed s (s.handleSysregTrap esr elr).1 .sysregTrap ∧ (s.handleSysregTrap esr elr).2 = s.expecting .sysregTrap := by
  cases hexpecting : s.machine.expectingSysregTrap <;> refine ⟨⟨fun w' => ?_, fun w' => ?_⟩, ?_⟩ <;> try cases w'
  all_goals simp [Core.handleSysregTrap, Core.expecting, Core.observed, hexpecting]

/-- Ending the excursion or the machine touches no watch. -/
theorem Consumed.withExec {s' : Core} (h : Consumed s s' w) (exec : Execution) :
    Consumed s { s' with machine := { s'.machine with exec := exec } } w :=
  ⟨fun w' => (by cases w' <;> rfl : Core.expecting _ w' = s'.expecting w').trans (h.expecting w'),
    fun w' => (by cases w' <;> rfl : Core.observed _ w' = s'.observed w').trans (h.observed w')⟩

theorem handleFault_exec (s : Core) (esr far elr : Reg) : (s.handleFault esr far elr).1.machine.exec = s.machine.exec := by
  unfold Core.handleFault
  dsimp only
  split <;> rfl

/-- The handler of EL1 skips the instruction of an announced exception, and halts on any other. -/
theorem syncEl1Handler_trapped {esr far : Reg} {frame : TrapFrame}
    (h : (if isDataAbort esr then some Watch.dataAbort else if exceptionClass esr = 0x1c then some .pacTrap else none) = some w) :
    Consumed s (Arch.syncEl1Handler s esr far frame).1 w ∧
      (s.expecting w = true → (Arch.syncEl1Handler s esr far frame).1.machine.exec = s.machine.exec ∧
        (Arch.syncEl1Handler s esr far frame).2 = frame.skip) ∧
      (s.expecting w = false → (Arch.syncEl1Handler s esr far frame).1.machine.exec = .halted) := by
  unfold Arch.syncEl1Handler
  by_cases habort : isDataAbort esr = true
  · rw [if_pos habort] at h
    obtain rfl := Option.some.inj h
    obtain ⟨hconsumed, hresult⟩ := handleFault_consumed s esr far frame.elr
    have hclass : exceptionClass esr ≠ 0x1c := fun heq => by simp [isDataAbort, heq] at habort
    simp only [habort, if_true]
    cases hexpecting : s.expecting .dataAbort with
    | true =>
      rw [hexpecting] at hresult
      rw [if_pos hresult]
      exact ⟨hconsumed, fun _ => ⟨handleFault_exec s esr far frame.elr, rfl⟩, fun h => absurd h.symm Bool.false_ne_true⟩
    | false =>
      rw [hexpecting] at hresult
      rw [if_neg (by rw [hresult]; exact Bool.false_ne_true), if_neg fun h => hclass (of_decide_eq_true (Bool.and_eq_true_iff.1 h).1)]
      exact ⟨hconsumed.withExec _, fun h => absurd h Bool.false_ne_true, fun _ => rfl⟩
  · rw [if_neg habort] at h
    split at h
    · next hclass =>
      obtain rfl := Option.some.inj h
      simp only [habort, if_false, hclass, decide_true, Bool.true_and, Bool.false_eq_true]
      cases hexpecting : s.pacExpectedTrap with
      | true =>
        refine ⟨⟨fun w' => ?_, fun w' => ?_⟩, fun _ => ⟨rfl, rfl⟩, fun h => absurd (h.symm.trans hexpecting) Bool.false_ne_true⟩
        · cases w' <;> simp [Core.expecting]
        · cases w' <;> simp [Core.observed, Core.expecting, hexpecting]
      | false =>
        refine ⟨⟨fun w' => ?_, fun w' => ?_⟩, fun h => absurd (hexpecting.symm.trans h) Bool.false_ne_true, fun _ => rfl⟩
        · cases w' <;> simp [Core.expecting, Core.halt, hexpecting]
        · cases w' <;> simp [Core.observed, Core.expecting, Core.halt, hexpecting]
    · cases h

/-- What an announced exception from EL0 leaves in the kernel's `x0`. -/
def Watch.status : Watch → Status
  | .dataAbort => .aborted
  | _ => .denied

/-- The handler of the lower level goes back to the kernel for an announced exception, and halts on any other. -/
theorem syncLowerElHandler_trapped {esr far : Reg} {frame : TrapFrame}
    (h : (if isDataAbort esr then some Watch.dataAbort
      else if exceptionClass esr = 0x18 ∨ exceptionClass esr = 0 then some .sysregTrap else none) = some w) :
    Consumed s (arch.syncLowerElHandler s esr far frame) w ∧
      (arch.syncLowerElHandler s esr far frame).machine.exec =
        if s.expecting w = true then .kernel w.status.code else .halted := by
  unfold Arch.syncLowerElHandler
  by_cases habort : isDataAbort esr = true
  · rw [if_pos habort] at h
    obtain rfl := Option.some.inj h
    obtain ⟨hconsumed, hresult⟩ := handleFault_consumed s esr far frame.elr
    have hclass : exceptionClass esr ≠ 0x15 := fun heq => by simp [isDataAbort, heq] at habort
    simp only [hclass, habort, if_true, if_false, hresult]
    split
    · exact ⟨hconsumed.withExec _, rfl⟩
    · exact ⟨hconsumed.withExec _, rfl⟩
  · rw [if_neg habort] at h
    split at h
    · next hclass =>
      obtain rfl := Option.some.inj h
      obtain ⟨hconsumed, hresult⟩ := handleSysregTrap_consumed s esr frame.elr
      have hsvc : exceptionClass esr ≠ 0x15 := by
        rcases hclass with heq | heq <;> rw [heq] <;> decide
      rw [if_neg hsvc, if_neg habort, if_pos hclass]
      dsimp only
      rw [hresult]
      split
      · exact ⟨hconsumed.withExec _, rfl⟩
      · exact ⟨hconsumed.withExec _, rfl⟩
    · cases h

def SameWatches (s s' : Core) : Prop := ∀ w, s'.expecting w = s.expecting w ∧ s'.observed w = s.observed w

theorem SameWatches.of_machine {m : Machine} (h : m.watchFlags = s.machine.watchFlags) (v : Services) :
    SameWatches s { s with machine := m, services := v } := by
  obtain ⟨hfault, htrap⟩ := Prod.ext_iff.1 h
  intro w
  cases w
  · exact ⟨hfault, rfl⟩
  · exact ⟨htrap, rfl⟩
  · exact ⟨rfl, rfl⟩

theorem svcHandler_sameWatches (s : Core) (esr : Reg) (frame : TrapFrame) : SameWatches s (arch.svcHandler s esr frame) := by
  unfold Arch.svcHandler
  dsimp only
  split
  · exact .of_machine (svcReturn_watchFlags frame) _
  · split
    · exact .of_machine (svcCall_watchFlags _ frame) _
    · split
      · exact .of_machine (svcCall_watchFlags _ frame) _
      · split
        · exact .of_machine (svcCall_watchFlags _ frame) _
        · split
          · exact .of_machine (scheduled_watchFlags frame _) _
          · split
            · exact .of_machine (svcSyscall_watchFlags _ frame) _
            · exact .of_machine rfl _

/-- The handler of EL1 for an exception that cannot be announced. -/
theorem syncEl1Handler_untrapped {esr far : Reg} {frame : TrapFrame} (habort : isDataAbort esr = false)
    (hclass : exceptionClass esr ≠ 0x1c) : (Arch.syncEl1Handler s esr far frame).1 = s.halt := by
  unfold Arch.syncEl1Handler
  rw [habort]
  simp only [Bool.false_eq_true, if_false]
  rw [if_neg fun h => hclass (of_decide_eq_true (Bool.and_eq_true_iff.1 h).1)]

theorem syncLowerElHandler_untrapped {esr far : Reg} {frame : TrapFrame} (habort : isDataAbort esr = false)
    (hclass : ¬ (exceptionClass esr = 0x18 ∨ exceptionClass esr = 0)) :
    arch.syncLowerElHandler s esr far frame = if exceptionClass esr = 0x15 then arch.svcHandler s esr frame else s.halt := by
  unfold Arch.syncLowerElHandler
  rw [habort]
  simp only [Bool.false_eq_true, if_false, hclass]

theorem coreStep_trapped (h : s.trapped e = some w) :
    Consumed s (arch.coreStep s e) w := by
  cases e with
  | machine e => cases h
  | expect w => cases h
  | syncEl1 esr far frame =>
    simp only [Core.trapped] at h
    split at h
    · next hkernel =>
      simp only [Arch.coreStep, hkernel, if_true]
      exact (syncEl1Handler_trapped h).1
    · cases h
  | syncLowerEl esr far frame =>
    simp only [Core.trapped] at h
    split at h
    · next hel0 =>
      simp only [Arch.coreStep, hel0, if_true]
      exact (syncLowerElHandler_trapped h).1
    · cases h

/-- Every other event but an announcement leaves the watches alone. -/
theorem coreStep_untrapped (hok : CoreOk s e) (h : s.trapped e = none) (hquiet : ∀ w, ¬ Announces w s e) :
    SameWatches s (arch.coreStep s e) := by
  cases e with
  | machine e => exact .of_machine (machineStep_watchFlags hok) _
  | expect w =>
    simp only [Arch.coreStep]
    split
    · next hkernel => exact absurd ⟨hkernel, rfl⟩ (hquiet w)
    · exact fun _ => ⟨rfl, rfl⟩
  | syncEl1 esr far frame =>
    simp only [Core.trapped] at h
    simp only [Arch.coreStep]
    split
    · next hkernel =>
      rw [if_pos hkernel] at h
      split at h
      · cases h
      · next habort =>
        split at h
        · cases h
        · next hclass =>
          rw [syncEl1Handler_untrapped (Bool.eq_false_iff.2 habort) hclass]
          exact .of_machine rfl _
    · exact fun _ => ⟨rfl, rfl⟩
  | syncLowerEl esr far frame =>
    simp only [Core.trapped] at h
    simp only [Arch.coreStep]
    split
    · next hel0 =>
      rw [if_pos hel0] at h
      split at h
      · cases h
      · next habort =>
        split at h
        · cases h
        · next hclass =>
          rw [syncLowerElHandler_untrapped (Bool.eq_false_iff.2 habort) hclass]
          split
          · exact svcHandler_sameWatches s esr frame
          · exact .of_machine rfl _
    · exact fun _ => ⟨rfl, rfl⟩

theorem coreStep_expect (hkernel : s.inKernel = true) (w' : Watch) :
    (arch.coreStep s (.expect w)).expecting w' = (s.expecting w' || decide (w' = w)) ∧
      (arch.coreStep s (.expect w)).observed w' = (s.observed w' && decide (w' ≠ w)) := by
  simp only [Arch.coreStep, hkernel, if_true]
  cases w <;> cases w' <;> simp [Core.expect, Core.expecting, Core.observed]

/-- An immediate the handler does not know. -/
theorem svcHandler_unexpected {esr : Reg} {frame : TrapFrame} (himm : 5 < (svcImmediate esr).toNat) :
    arch.svcHandler s esr frame = s.halt := by
  have hne : ∀ k : BitVec 32, k.toNat ≤ 5 → svcImmediate esr ≠ k := fun k hk heq => absurd (heq ▸ himm) (Nat.not_lt.2 hk)
  unfold Arch.svcHandler
  dsimp only
  rw [if_neg (hne 0 (by decide)), if_neg (hne 1 (by decide)), if_neg (hne 2 (by decide)), if_neg (hne 3 (by decide)),
    if_neg (hne 4 (by decide)), if_neg (hne 5 (by decide))]

end

/-! ## Runs -/

section
variable {arch : Arch} {v : Services} {h : List (Core × CoreEvent)} {s : Core}

/-- An event with no exception to forgive announces one, or leaves the watches alone. -/
theorem untrapped_cases {e : CoreEvent} (hok : CoreOk s e) (hnone : s.trapped e = none) :
    (∃ w, Announces w s e) ∨ SameWatches s (arch.coreStep s e) := by
  by_cases hsome : ∃ w, Announces w s e
  · exact Or.inl hsome
  · exact Or.inr (coreStep_untrapped hok hnone fun w hw => hsome ⟨w, hw⟩)

/-- An announcement stands until an exception of its kind is taken. -/
theorem expecting_iff (r : Run CoreOk arch.coreStep (arch.coreBoot v) h s) (w : Watch) :
    s.expecting w = true ↔ Since (Announces w) (Traps w) h := by
  refine r.flag_iff_since (F := fun s => s.expecting w = true) ?_ ?_ ?_ ?_
  · cases w <;> exact Bool.false_ne_true
  · rintro s e - ⟨hkernel, rfl⟩
    rw [(coreStep_expect hkernel w).1]
    simp
  · rintro s e - - htraps
    rw [(coreStep_trapped htraps).expecting]
    simp
  · intro s e hok hannounces htraps
    cases htrapped : s.trapped e with
    | some w' =>
      have hne : w ≠ w' := fun heq => htraps (heq ▸ htrapped)
      rw [(coreStep_trapped htrapped).expecting, decide_eq_true hne, Bool.and_true]
    | none =>
      have hcases : _ ∨ SameWatches s (arch.coreStep s e) := untrapped_cases hok htrapped
      rcases hcases with ⟨w', hkernel, rfl⟩ | hsame
      · have hne : w ≠ w' := fun heq => hannounces (heq ▸ ⟨hkernel, rfl⟩)
        rw [(coreStep_expect hkernel w).1, decide_eq_false hne, Bool.or_false]
      · rw [(hsame w).1]

/-- A forgiven exception stays recorded until the next announcement. -/
theorem observed_iff (r : Run CoreOk arch.coreStep (arch.coreBoot v) h s) (w : Watch) :
    s.observed w = true ↔ Since (Forgives w) (Announces w) h := by
  refine r.flag_iff_since (F := fun s => s.observed w = true) ?_ ?_ ?_ ?_
  · cases w <;> exact Bool.false_ne_true
  · rintro s e - ⟨htrapped, hexpecting⟩
    rw [(coreStep_trapped htrapped).observed, hexpecting]
    simp
  · rintro s e - - ⟨hkernel, rfl⟩
    rw [(coreStep_expect hkernel w).2]
    simp
  · intro s e hok hforgives hannounces
    cases htrapped : s.trapped e with
    | some w' =>
      rw [(coreStep_trapped htrapped).observed]
      by_cases heq : w = w'
      · subst heq
        rw [Bool.eq_false_iff.2 fun hexpecting => hforgives ⟨htrapped, hexpecting⟩]
        simp
      · rw [decide_eq_false heq, Bool.false_and, Bool.or_false]
    | none =>
      have hcases : _ ∨ SameWatches s (arch.coreStep s e) := untrapped_cases hok htrapped
      rcases hcases with ⟨w', hkernel, rfl⟩ | hsame
      · have hne : w ≠ w' := fun heq => hannounces (heq ▸ ⟨hkernel, rfl⟩)
        rw [(coreStep_expect hkernel w).2, decide_eq_true hne, Bool.and_true]
      · rw [(hsame w).2]

/-- In every run an announced exception is forgiven once: a data abort, a trapped system register or a failed
authentication goes on (in the kernel from EL0, past the instruction at EL1) exactly if it was announced since the last
one of its kind was taken, and is on record until the next announcement. Every other exception from EL0 but SVC #0 to #5
halts the machine. -/
theorem exceptions_forgiven_once (r : Run CoreOk arch.coreStep (arch.coreBoot v) h s) :
    (∀ w, s.observed w = true ↔ Since (Forgives w) (Announces w) h) ∧
      (∀ w esr far frame, s.trapped (.syncLowerEl esr far frame) = some w →
        (Since (Announces w) (Traps w) h →
          (arch.coreStep s (.syncLowerEl esr far frame)).machine.exec = .kernel w.status.code) ∧
        (¬ Since (Announces w) (Traps w) h → (arch.coreStep s (.syncLowerEl esr far frame)).machine.exec = .halted)) ∧
      (∀ w esr far frame, s.trapped (.syncEl1 esr far frame) = some w →
        (Since (Announces w) (Traps w) h →
          (arch.coreStep s (.syncEl1 esr far frame)).machine.exec = s.machine.exec ∧
            (Arch.syncEl1Handler s esr far frame).2 = frame.skip) ∧
        (¬ Since (Announces w) (Traps w) h → (arch.coreStep s (.syncEl1 esr far frame)).machine.exec = .halted)) ∧
      ∀ esr far frame, s.machine.inEl0 = true → s.trapped (.syncLowerEl esr far frame) = none →
        exceptionClass esr ≠ 0x15 ∨ 5 < (svcImmediate esr).toNat →
          (arch.coreStep s (.syncLowerEl esr far frame)).machine.exec = .halted := by
  refine ⟨observed_iff r, fun w esr far frame htrapped => ?_, fun w esr far frame htrapped => ?_,
    fun esr far frame hel0 htrapped hother => ?_⟩
  · simp only [Core.trapped] at htrapped
    rw [← expecting_iff r w]
    split at htrapped
    · next hel0 =>
      simp only [Arch.coreStep, hel0, if_true]
      rw [(syncLowerElHandler_trapped htrapped).2]
      exact ⟨fun hexpecting => if_pos hexpecting, fun hexpecting => if_neg hexpecting⟩
    · cases htrapped
  · simp only [Core.trapped] at htrapped
    rw [← expecting_iff r w]
    split at htrapped
    · next hkernel =>
      simp only [Arch.coreStep, hkernel, if_true]
      obtain ⟨-, hon, hhalts⟩ : Consumed s (Arch.syncEl1Handler s esr far frame).1 w ∧ _ := syncEl1Handler_trapped htrapped
      exact ⟨hon, fun hexpecting => hhalts (Bool.eq_false_iff.2 hexpecting)⟩
    · cases htrapped
  · simp only [Core.trapped, hel0, if_true] at htrapped
    simp only [Arch.coreStep, hel0, if_true]
    split at htrapped
    · cases htrapped
    · next habort =>
      split at htrapped
      · cases htrapped
      · next hclass =>
        rw [syncLowerElHandler_untrapped (Bool.eq_false_iff.2 habort) hclass]
        rcases hother with hsvc | himm
        · rw [if_neg hsvc]
          rfl
        · rw [svcHandler_unexpected himm, ite_self]
          rfl

end

/-- A data abort is announced, and a service is entered. -/
def announcedRun : List (Core × CoreEvent) × Core :=
  traceFrom boardArch.coreStep [] (boardArch.coreBoot (servicesBoot 0))
    [.expect .dataAbort, .machine (.runEl0Service 0x41050000 100 10 ⟨fun _ => 0, 0, 0, 0, 0⟩)]

theorem exceptions_forgiven_once_announced :
    (boardArch.coreStep announcedRun.2 (.syncLowerEl 0x92000047 0x40080000 ⟨fun _ => 0, 0, 0, 0, 0⟩)).machine.exec =
        .kernel Status.aborted.code ∧
      (boardArch.coreStep announcedRun.2 (.syncLowerEl 0x62000000 0 ⟨fun _ => 0, 0, 0, 0, 0⟩)).machine.exec = .halted := by
  have ha : Admits CoreOk boardArch.coreStep (boardArch.coreBoot (servicesBoot 0))
      [.expect .dataAbort, .machine (.runEl0Service 0x41050000 100 10 ⟨fun _ => 0, 0, 0, 0, 0⟩)] := ⟨trivial, trivial, trivial⟩
  have r : Run CoreOk boardArch.coreStep (boardArch.coreBoot (servicesBoot 0)) announcedRun.1 announcedRun.2 := Run.start.trace ha
  have hfault : Since (Announces .dataAbort) (Traps .dataAbort) announcedRun.1 :=
    Or.inr ⟨fun h => (nomatch h), Or.inl ⟨rfl, rfl⟩⟩
  have hsysreg : ¬ Since (Announces .sysregTrap) (Traps .sysregTrap) announcedRun.1 := by
    rintro (⟨-, h⟩ | ⟨-, ⟨-, h⟩ | ⟨-, h⟩⟩)
    · cases h
    · cases h
    · exact h
  have hel0 : announcedRun.2.machine.inEl0 = true := rfl
  generalize announcedRun.1 = h, announcedRun.2 = s at r hfault hsysreg hel0 ⊢
  obtain ⟨-, hlower, -, -⟩ := exceptions_forgiven_once r
  refine ⟨(hlower .dataAbort _ _ _ ?_).1 hfault, (hlower .sysregTrap _ _ _ ?_).2 hsysreg⟩
  · simp only [Core.trapped, hel0, if_true]
    decide
  · simp only [Core.trapped, hel0, if_true]
    decide

end Lettuce
