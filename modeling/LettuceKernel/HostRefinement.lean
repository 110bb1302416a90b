import LettuceKernel.BoardInvariant
import LettuceKernel.Lib.Unwinding
/-!
# One call, two builds

The gates of `ipc/` (the hosted build) run the target as a C function between `lettuce_context_enter` and `lettuce_context_leave`;
`lettuce_arch_sync_lower_el_handler` (cpu.c:296) does the same work with its own context stack, an ERET into the target
and SVC #0 to return. A tree of calls ends in the same services, domains and saved callers either way, and a call is refused with
the same status, with one exception: the ARM64 stack holds eight callers and answers OVERFLOW to the ninth
call, where the hosted build goes on.

| here | there |
| --- | --- |
| `Machine.hosted`     | the state of the hosted build that a machine state stands for |
| `svcRequest`         | the gate, or the return from an entry, that an exception stands for |
-/

namespace Lettuce

open Runs

/-- The gate that SVC #1, #2 or #3 stands for. -/
def GateKind.call (kind : GateKind) (msg : CallMessage) : GateCall :=
  match kind with
  | .sameLayer => .sameLayer msg
  | .crossLayer => .crossLayer (some msg)
  | .elevator => .elevator (some msg)

def ArchContextFrame.context (f : ArchContextFrame) : ExecutionContext := { serviceId := f.serviceId, domainId := f.domainId }

/-- The registers, the scheduler and the page tables are not there. -/
def Machine.hosted (m : Machine) : GateState DomainId where
  toKernel := m.toKernel
  protection := m.protection.currentDomain
  calls := m.stack.map ArchContextFrame.context

/-- A call that finds the stack full is not made. -/
def svcRequest (m : Machine) : MachineEvent → Option KernelEvent
  | .trap (.svcCall kind) frame => if m.stack.length < contextMax then some (.gate (kind.call (svcMessage frame))) else none
  | .trap .svcReturn _ => some .entryReturn
  | _ => none

/-- Exceptions from EL0 that do not switch tasks. -/
def Unswitched (m : Machine) : MachineEvent → Prop
  | .trap t frame => m.inEl0 = true ∧ ¬ m.SwitchDue t frame
  | _ => False

/-- Services are registered in the domains that have tables. -/
def KnownRegistration (_ : Machine) : MachineEvent → Prop
  | .kernel (.registryRegister d) => KnownDomain d.domain
  | _ => True

/-- What `Machine.hosted` needs: the domains that are entered and left have tables. -/
structure Machine.Placed (arch : Arch) (m : Machine) : Prop where
  confined : Machine.Confined arch m
  frames : ∀ f ∈ m.stack, KnownDomain f.domainId

section
variable {arch : Arch} {m : Machine}

/-! ## The validators -/

/-- The handler tests the entry pointer after all three validators, the gates after the first only. -/
theorem svcResolve_eq_gateResolve (k : Kernel) (kind : GateKind) (msg : CallMessage) :
    svcResolve k kind msg = gateResolve k (kind.call msg) := by
  cases kind with
  | sameLayer => rfl
  | crossLayer =>
    simp only [svcResolve, svcValidate, gateResolve, GateKind.call]
    cases h : crossLayerValidate k (some msg) with
    | error status => rfl
    | ok r =>
      have hentry := (crossLayerValidate_ok h).entry
      simp only [hentry, if_false]
  | elevator =>
    simp only [svcResolve, svcValidate, gateResolve, GateKind.call]
    cases h : elevatorPolicy k (some msg) with
    | error status => rfl
    | ok r =>
      have hentry := (elevatorPolicy_ok h).entry
      simp only [hentry, if_false]

/-! ## Domains of saved callers -/

theorem trapStep_stack (m : Machine) {t : Trap} (hcall : ∀ kind, t ≠ .svcCall kind) (hreturn : t ≠ .svcReturn) (frame : TrapFrame) :
    (arch.trapStep m t frame).stack = m.stack := by
  have hschedules : t = .svcYield ∨ t = .timer → (arch.trapStep m t frame).stack = m.stack := by
    intro ht
    rcases yieldOrTick_cases arch m ht frame with ⟨-, hc⟩ | ⟨-, j, hsw⟩
    · obtain ⟨sched, ticks, heq⟩ := hc.eq
      rw [heq]
    · obtain ⟨sched, ticks, heq⟩ := hsw.eq
      rw [heq]
  cases t with
  | svcReturn => exact absurd rfl hreturn
  | svcCall kind => exact absurd rfl (hcall kind)
  | svcYield => exact hschedules (Or.inl rfl)
  | timer => exact hschedules (Or.inr rfl)
  | dataAbort =>
    simp only [Arch.trapStep, Arch.dataAbort]
    split <;> rfl
  | sysregTrap =>
    simp only [Arch.trapStep, Arch.sysregTrap]
    split <;> rfl
  | fatal => rfl

namespace Machine.Placed

theorem boot (arch : Arch) : Machine.Placed arch arch.machineBoot :=
  ⟨machineBoot_confined arch, fun _ hf => absurd hf List.not_mem_nil⟩

theorem trap (hm : Machine.Placed arch m) (t : Trap) (frame : TrapFrame) {f : ArchContextFrame}
    (hf : f ∈ (arch.trapStep m t frame).stack) : KnownDomain f.domainId := by
  cases t with
  | svcReturn =>
    simp only [Arch.trapStep] at hf
    cases hstack : m.stack with
    | nil =>
      rw [svcReturn_nil arch hstack] at hf
      exact hm.frames f hf
    | cons f' rest =>
      rw [svcReturn_cons arch hstack] at hf
      exact hm.frames f (hstack ▸ List.mem_cons_of_mem _ hf)
  | svcCall kind =>
    simp only [Arch.trapStep] at hf
    rcases svcCall_cases arch m kind frame with ⟨-, status, heq⟩ | ⟨-, r, -, -, heq⟩
    · rw [heq] at hf
      exact hm.frames f hf
    · rw [heq] at hf
      rcases List.mem_cons.1 hf with rfl | hf
      · exact hm.confined.domain
      · exact hm.frames f hf
  | _ =>
    rw [trapStep_stack m (by simp) (by simp)] at hf
    exact hm.frames f hf

theorem step (hm : Machine.Placed arch m) {e : MachineEvent} (hok : KnownRegistration m e) :
    Machine.Placed arch (arch.machineStep m e) := by
  refine ⟨hm.confined.step ?_, fun f hf => ?_⟩
  · rintro d rfl
    exact hok
  · unfold Arch.machineStep at hf
    split at hf
    · rw [kernelStep_stack] at hf
      exact hm.frames f hf
    · split at hf
      · exact hm.trap _ _ hf
      · exact hm.frames f hf
    · exact hm.frames f hf

theorem run {h : MachineHistory} (r : Run KnownRegistration arch.machineStep arch.machineBoot h m) : Machine.Placed arch m :=
  r.invariant (I := Machine.Placed arch) (boot arch) fun _ _ hok hm => hm.step hok

/-- A caller that is still on the stack is left as it was saved. -/
theorem leave (hm : Machine.Placed arch m) {f : ArchContextFrame} (hf : f ∈ m.stack) :
    (arch.mmuEnter f.domainId m.protection).currentDomain = f.domainId := by
  rw [mmuEnter_known hm.confined.consistent (hm.frames f hf)]

theorem callMmu (hm : Machine.Placed arch m) (kind : GateKind) {d : DomainId} (hd : KnownDomain d) :
    (arch.callMmu m kind d).currentDomain = d := by
  unfold Arch.callMmu
  split
  · rfl
  · rw [mmuEnter_known hm.confined.consistent hd]

end Machine.Placed

/-! ## One exception, one gate -/

theorem hosted_call (hm : Machine.Placed arch m) (kind : GateKind) (frame : TrapFrame) :
    (arch.svcCall m kind frame).hosted =
      if m.stack.length < contextMax then gateStep hostProtection m.hosted (.gate (kind.call (svcMessage frame))) else m.hosted := by
  have hresolve := svcResolve_eq_gateResolve m.toKernel kind (svcMessage frame)
  cases hr : svcResolve m.toKernel kind (svcMessage frame) with
  | error status =>
    have hgate : gateResolve m.hosted.toKernel (kind.call (svcMessage frame)) = .error status := hresolve.symm.trans hr
    rw [svcCall_error arch hr]
    simp only [gateStep, hgate, ite_self]
    rfl
  | ok r =>
    have hgate : gateResolve m.hosted.toKernel (kind.call (svcMessage frame)) = .ok r := hresolve.symm.trans hr
    have hd : KnownDomain r.target.domain := hm.confined.services.lookup (svcResolve_ok hr).target
    have hne : r.target.domain ≠ 0 := by
      rintro h0
      rw [h0] at hd
      exact absurd hd (by decide)
    split
    · rename_i hdepth
      rw [svcCall_entered arch hr hdepth]
      have hstep : gateStep hostProtection m.hosted (.gate (kind.call (svcMessage frame))) =
          contextEnter hostProtection m.hosted r.target.id r.target.domain := by
        simp only [gateStep, hgate]
      rw [hstep]
      simp only [contextEnter, Machine.hosted, hm.callMmu kind hd, hostProtection, if_pos hne, List.map_cons]
      rfl
    · rename_i hfull
      rw [svcCall_overflow arch hr (Nat.not_lt.1 hfull)]
      rfl

theorem hosted_return (hm : Machine.Placed arch m) (frame : TrapFrame) :
    (arch.svcReturn m frame).hosted = gateStep hostProtection m.hosted .entryReturn := by
  cases hstack : m.stack with
  | nil =>
    rw [svcReturn_nil arch hstack]
    simp only [gateStep, Machine.hosted, hstack, List.map_nil]
  | cons f rest =>
    have hleave := hm.leave (hstack ▸ List.mem_cons_self .. : f ∈ m.stack)
    rw [svcReturn_cons arch hstack]
    simp only [gateStep, Machine.hosted, hstack, List.map_cons, contextLeave, hostProtection, hleave]
    rfl

/-- Every other exception that does not switch tasks leaves the calls alone. -/
theorem hosted_other {t : Trap} (hcall : ∀ kind, t ≠ .svcCall kind) (hreturn : t ≠ .svcReturn) {frame : TrapFrame}
    (hdue : ¬ m.SwitchDue t frame) : (arch.trapStep m t frame).hosted = m.hosted := by
  have hschedules : t = .svcYield ∨ t = .timer → (arch.trapStep m t frame).hosted = m.hosted := by
    intro ht
    rcases yieldOrTick_cases arch m ht frame with ⟨-, hc⟩ | ⟨h, -⟩
    · obtain ⟨sched, ticks, heq⟩ := hc.eq
      rw [heq]
      rfl
    · exact absurd h hdue
  cases t with
  | svcReturn => exact absurd rfl hreturn
  | svcCall kind => exact absurd rfl (hcall kind)
  | svcYield => exact hschedules (Or.inl rfl)
  | timer => exact hschedules (Or.inr rfl)
  | dataAbort =>
    simp only [Arch.trapStep, Arch.dataAbort]
    split <;> rfl
  | sysregTrap =>
    simp only [Arch.trapStep, Arch.sysregTrap]
    split <;> rfl
  | fatal => rfl

theorem hosted_step (hm : Machine.Placed arch m) {e : MachineEvent} (hok : Unswitched m e) :
    Machine.Placed arch (arch.machineStep m e) ∧
      (arch.machineStep m e).hosted = endState (gateStep hostProtection) m.hosted (svcRequest m e).toList := by
  cases e with
  | trap t frame =>
    obtain ⟨hel0, hdue⟩ := hok
    refine ⟨hm.step trivial, ?_⟩
    rw [machineStep_trap arch hel0]
    cases t with
    | svcReturn => exact hosted_return hm frame
    | svcCall kind =>
      simp only [Arch.trapStep, svcRequest]
      rw [hosted_call hm]
      split <;> rfl
    | _ => exact hosted_other (by simp) (by simp) hdue
  | _ => exact absurd hok id

end

/-- **Two builds, one semantics of calls**: from any state a run of the ARM64 machine reaches, any calls, returns and other
exceptions that do not switch tasks lead to the service, the domain, the tables and the saved callers to which
the same gates and returns lead in the hosted build. Whatever is called next is refused with the status of the gate,
enters the target that the gate resolves, or, only with eight callers saved, is answered OVERFLOW. -/
theorem svc_refines_gates (arch : Arch) {h : MachineHistory} {m : Machine}
    (r : Run KnownRegistration arch.machineStep arch.machineBoot h m) {es : List MachineEvent}
    (ha : Admits Unswitched arch.machineStep m es) :
    (endState arch.machineStep m es).hosted =
        endState (gateStep hostProtection) m.hosted (requests arch.machineStep svcRequest m es) ∧
      ∀ kind frame, (arch.trapStep (endState arch.machineStep m es) (.svcCall kind) frame).exec =
        match gateResolve (endState arch.machineStep m es).hosted.toKernel (kind.call (svcMessage frame)) with
        | .error status => .el0 (frame.setX0 status.code)
        | .ok resolution =>
          if (endState arch.machineStep m es).hosted.calls.length < contextMax then .el0 (entryFrame resolution frame)
          else .el0 (frame.setX0 Status.overflow.code) := by
  have hstep : ∀ m e, Unswitched m e → Machine.Placed arch m → Machine.Placed arch (arch.machineStep m e) ∧
      (arch.machineStep m e).hosted = endState (gateStep hostProtection) m.hosted (svcRequest m e).toList :=
    fun _ _ hok hm => hosted_step hm hok
  refine ⟨simulation Machine.hosted hstep (Machine.Placed.run r) ha, fun kind frame => ?_⟩
  generalize endState arch.machineStep m es = m'
  have hresolve := svcResolve_eq_gateResolve m'.toKernel kind (svcMessage frame)
  rw [show m'.hosted.toKernel = m'.toKernel from rfl, ← hresolve, show m'.hosted.calls.length = m'.stack.length from List.length_map _]
  cases hr : svcResolve m'.toKernel kind (svcMessage frame) with
  | error status => rw [Arch.trapStep, svcCall_error arch hr]
  | ok resolution =>
    dsimp only
    split
    · rename_i hdepth
      rw [Arch.trapStep, svcCall_entered arch hr hdepth]
    · rename_i hfull
      rw [Arch.trapStep, svcCall_overflow arch hr (Nat.not_lt.1 hfull)]

/-- The camera's call of the display, and the return. -/
theorem svc_refines_gates_display :
    (endState (gateStep hostProtection) twoTaskRun.2.hosted
      [.gate (.sameLayer (svcMessage callDisplay)), .entryReturn]).currentServiceId = 10 := by
  have hregister : ∀ m, ∀ e ∈ twoTaskSetUp, KnownRegistration m e := by
    intro m e he
    simp only [twoTaskSetUp, boardSetUp, List.cons_append, List.nil_append, List.mem_cons, List.not_mem_nil, or_false] at he
    rcases he with rfl | rfl | rfl | rfl | rfl | rfl | rfl | rfl | rfl | rfl | rfl | rfl | rfl | rfl
    · exact Or.inl rfl
    · exact Or.inr (Or.inl rfl)
    · exact Or.inr (Or.inr rfl)
    all_goals trivial
  have r : Run KnownRegistration boardArch.machineStep boardArch.machineBoot twoTaskRun.1 twoTaskRun.2 :=
    Run.start.trace (admits_of_mem _ hregister)
  have hstack : twoTaskRun.2.stack = [] := rfl
  have hcall : (boardArch.machineStep twoTaskRun.2 (.trap (.svcCall .sameLayer) callDisplay)).inEl0 = true := by decide
  have hel0 : twoTaskRun.2.inEl0 = true := by decide
  have hback : (endState boardArch.machineStep twoTaskRun.2
      [.trap (.svcCall .sameLayer) callDisplay, .trap .svcReturn callDisplay]).currentServiceId = 10 := by decide
  generalize twoTaskRun.1 = h, twoTaskRun.2 = m at r hstack hcall hel0 hback ⊢
  have hidle : ∀ (m : Machine) (frame : TrapFrame),
      ¬ m.SwitchDue (.svcCall .sameLayer) frame ∧ ¬ m.SwitchDue .svcReturn frame := by
    simp only [Machine.SwitchDue, Machine.schedules, reduceCtorEq, false_and, exists_false, not_false_eq_true, and_self,
      implies_true]
  have ha : Admits Unswitched boardArch.machineStep m
      [.trap (.svcCall .sameLayer) callDisplay, .trap .svcReturn callDisplay] :=
    ⟨⟨hel0, (hidle _ _).1⟩, ⟨hcall, (hidle _ _).2⟩, trivial⟩
  have hrequests : requests boardArch.machineStep svcRequest m
      [.trap (.svcCall .sameLayer) callDisplay, .trap .svcReturn callDisplay] =
        [.gate (.sameLayer (svcMessage callDisplay)), .entryReturn] := by
    have hroom : m.stack.length < contextMax := by rw [hstack]; decide
    simp only [requests, svcRequest, hroom, if_true, Option.toList, GateKind.call, List.cons_append, List.nil_append]
  have hview := (svc_refines_gates boardArch r ha).1
  rw [hrequests] at hview
  rw [← hview]
  exact hback

end Lettuce
