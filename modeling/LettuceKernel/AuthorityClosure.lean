import LettuceKernel.BoardIsolation
import LettuceKernel.Provenance
import Mathlib.Logic.Relation
/-!
# What EL0 can reach without the kernel

While the kernel does not run an operation of its own, the registry, the dispatch table and the capabilities stay as they are.
Calls can then only follow the capabilities that were granted before: a service takes part only if a
chain of authorised calls leads to it from a service that took part already. Preemption in the middle
of a call does not change this, though it leaves the current service id to the wrong task.

| here | there |
| --- | --- |
| `Machine.Identity`   | the current service id, the callers in `g_context_stack`, the services of the tasks |
| `Machine.Place`      | their domains |
| `Entitled`           | what `lettuce_arch_sync_lower_el_handler` (cpu.c:335-435) lets a service call |
-/

namespace Lettuce

open Runs

/-! ## Who takes part -/

/-- Task `i` may run, now or later. -/
def Scheduler.Holds (s : Scheduler) (i : Slot) : Prop := (s.tasks i).Live ∨ s.current = some i

/-- `x` is what the machine holds of one who takes part: the current one, a caller on the stack or a task. -/
def Machine.Mentions {α : Type} (m : Machine) (current : α) (caller : ArchContextFrame → α) (task : Task → α) (x : α) : Prop :=
  x = current ∨ (∃ f ∈ m.stack, caller f = x) ∨ ∃ i, m.sched.Holds i ∧ task (m.sched.tasks i) = x

/-- Something runs in the name of service `id`, or waits to. -/
def Machine.Identity (m : Machine) (id : ServiceId) : Prop :=
  m.Mentions m.currentServiceId ArchContextFrame.serviceId Task.serviceId id

def Machine.Place (m : Machine) (d : DomainId) : Prop :=
  m.Mentions m.protection.currentDomain ArchContextFrame.domainId Task.domainId d

/-- A call of `t` in the name of `s` is authorised. -/
def Entitled (h : GateHistory Mmu) (k : Kernel) (s t : ServiceId) : Prop :=
  ∃ kind msg entry, msg.targetServiceId = t ∧ Authorized h { k with currentServiceId := s } kind msg entry

/-- A chain of authorised calls leads to `t` from a service that takes part in `m`. -/
def Reached (h : GateHistory Mmu) (m : Machine) (t : ServiceId) : Prop :=
  ∃ s, m.Identity s ∧ Relation.ReflTransGen (Entitled h m.toKernel) s t

/-- The operation that the kernel performs in this step, with the state before it. -/
def kernelOperation (p : Board × BoardEvent) : Option (GateState Mmu × KernelEvent) :=
  match p.1.machine.exec, p.2 with
  | .kernel _, .machine (.kernel e) => some (p.1.machine.toGateState, e)
  | _, _ => none

def kernelOperations (h : List (Board × BoardEvent)) : GateHistory Mmu := h.filterMap kernelOperation

/-- What happens while EL0 runs: exceptions, accesses and what the TLB does. -/
def BoardEvent.FromEl0 : BoardEvent → Prop
  | .machine (.trap _ _) => True
  | .machine _ => False
  | _ => True

/-! ## The kernel's history accounts for its tables -/

section
variable {arch : Arch}

theorem Backed.congr {P : Type} {h : GateHistory P} {s s' : GateState P} (hb : Backed h s) (hservices : s'.services = s.services)
    (hcaps : s'.caps = s.caps) : Backed h s' where
  registered := by rw [hservices]; exact hb.registered
  stored := by rw [hservices]; exact hb.stored
  granted := by rw [hcaps]; exact hb.granted

/-- Of the machine's events, an operation of the kernel that is one of `KernelEvent` changes the tables. -/
theorem machineStep_tables (m : Machine) {e : MachineEvent} (he : ∀ status op, m.exec = .kernel status → e ≠ .kernel op) :
    m.SameTables (arch.machineStep m e) := by
  unfold Arch.machineStep
  cases hexec : m.exec with
  | kernel status =>
    cases e with
    | kernel op => exact absurd rfl (he status op hexec)
    | sched e =>
      simp only [Arch.kernelStep]
      split <;> exact ⟨rfl, rfl⟩
    | preemptEnable =>
      simp only [Arch.kernelStep]
      split <;> exact ⟨rfl, rfl⟩
    | _ => exact ⟨rfl, rfl⟩
  | el0 regs =>
    cases e with
    | trap t frame => exact trapStep_tables t frame
    | _ => exact ⟨rfl, rfl⟩
  | halted => exact ⟨rfl, rfl⟩

theorem boardStep_tables (b : Board) {e : BoardEvent}
    (he : ∀ status op, b.machine.exec = .kernel status → e ≠ .machine (.kernel op)) :
    b.machine.SameTables (boardStep arch b e).machine := by
  cases e with
  | machine e => exact machineStep_tables b.machine fun status op hexec heq => he status op hexec (heq ▸ rfl)
  | syscall frame counter device =>
    simp only [boardStep, Board.syscall]
    repeat' split
    · exact svcSyscall_tables _ frame
    · exact ⟨rfl, rfl⟩
    · exact ⟨rfl, rfl⟩
  | store va value =>
    simp only [boardStep]
    repeat' split
    all_goals exact ⟨rfl, rfl⟩
  | invalidateDomain domain =>
    simp only [boardStep]
    split <;> exact ⟨rfl, rfl⟩
  | _ => exact ⟨rfl, rfl⟩

theorem backed_step {h : List (Board × BoardEvent)} {b : Board} (hb : Backed (kernelOperations h) b.machine.toGateState)
    (e : BoardEvent) : Backed (kernelOperations ((b, e) :: h)) (boardStep arch b e).machine.toGateState := by
  by_cases hop : ∃ status op, b.machine.exec = .kernel status ∧ e = .machine (.kernel op)
  · obtain ⟨status, op, hexec, rfl⟩ := hop
    have hhistory : kernelOperations ((b, .machine (.kernel op)) :: h) = (b.machine.toGateState, op) :: kernelOperations h := by
      simp only [kernelOperations, List.filterMap_cons, kernelOperation, hexec]
    rw [hhistory]
    have hstep : (boardStep arch b (.machine (.kernel op))).machine.toGateState =
        gateStep arch.mmuProtection b.machine.toGateState op := by
      simp only [boardStep, Arch.machineStep, hexec, Arch.kernelStep]
    rw [hstep]
    exact hb.step op
  · have he : ∀ status op, b.machine.exec = .kernel status → e ≠ .machine (.kernel op) := fun status op hexec heq =>
      hop ⟨status, op, hexec, heq⟩
    have hnone : kernelOperation (b, e) = none := by
      unfold kernelOperation
      split
      · rename_i status op hexec heq
        exact absurd heq (he status op hexec)
      · rfl
    obtain ⟨hservices, hcaps⟩ : b.machine.SameTables (boardStep arch b e).machine := boardStep_tables b he
    rw [kernelOperations, List.filterMap_cons, hnone]
    exact hb.congr hservices hcaps

theorem board_backed {L : Layout} {before : Translation.Memory} {frequency : BitVec 64} {ok : Board → BoardEvent → Prop}
    {h : List (Board × BoardEvent)} {b : Board} (r : Run ok (boardStep L.toArch) (Board.boot L before frequency) h b) :
    Backed (kernelOperations h) b.machine.toGateState :=
  r.historyInvariant (I := fun h b => Backed (kernelOperations h) b.machine.toGateState) (Backed.boot _)
    fun _ _ e _ hb => backed_step hb e

/-- A call that is accepted is one that the caller is entitled to. -/
theorem entitled_of_resolved {h : GateHistory Mmu} {m : Machine} (hb : Backed h m.toGateState) {kind : GateKind}
    {msg : CallMessage} {r : CallResolution} (hr : svcResolve m.toKernel kind msg = .ok r) :
    Entitled h m.toKernel m.currentServiceId r.target.id := by
  have hres := svcResolve_ok hr
  refine ⟨kind, msg, r.entry.entry, ?_, hb.authorized hres⟩
  exact (registryLookup_eq_some.1 hres.target).2.2.1.symm

end

/-! ## The scheduler brings nobody in -/

/-- Everyone that `s'` may run, `s` may. -/
structure Scheduler.Within (s s' : Scheduler) : Prop where
  serviceId : ∀ i, (s'.tasks i).serviceId = (s.tasks i).serviceId
  domainId : ∀ i, (s'.tasks i).domainId = (s.tasks i).domainId
  holds : ∀ i, s'.Holds i → s.Holds i

/-- And the task that is handed the processor is one of them. -/
structure ScheduleResult.Within (s : Scheduler) (r : ScheduleResult) : Prop where
  sched : s.Within r.sched
  handoff : ∀ handoff, r.handoff = some handoff → ∃ j, s.Holds j ∧ handoff.serviceId = (s.tasks j).serviceId ∧
    ∀ d, handoff.domain = some d → d = (s.tasks j).domainId

section
variable {s s' : Scheduler}

theorem Scheduler.Within.refl (s : Scheduler) : s.Within s := ⟨fun _ => rfl, fun _ => rfl, fun _ => id⟩

theorem Scheduler.Within.trans {s'' : Scheduler} (h : s.Within s') (h' : s'.Within s'') : s.Within s'' where
  serviceId := fun i => (h'.serviceId i).trans (h.serviceId i)
  domainId := fun i => (h'.domainId i).trans (h.domainId i)
  holds := fun i hi => h.holds i (h'.holds i hi)

theorem Scheduler.Within.result (h : s.Within s') {r : ScheduleResult} (hr : r.Within s') : r.Within s where
  sched := h.trans hr.sched
  handoff := by
    intro handoff hhandoff
    obtain ⟨j, hj, hservice, hdomain⟩ := hr.handoff handoff hhandoff
    exact ⟨j, h.holds j hj, hservice.trans (h.serviceId j), fun d hd => (hdomain d hd).trans (h.domainId j)⟩

/-- A change of the current task that leaves its identity. -/
theorem within_setTask {c : Slot} (hc : s.current = some c) {t : Task} (hservice : t.serviceId = (s.tasks c).serviceId)
    (hdomain : t.domainId = (s.tasks c).domainId) : s.Within (s.setTask c t) := by
  have hother : ∀ i, i ≠ c → (s.setTask c t).tasks i = s.tasks i := fun i hi => Function.update_of_ne hi _ _
  have hself : (s.setTask c t).tasks c = t := Function.update_self ..
  refine ⟨fun i => ?_, fun i => ?_, fun i hi => ?_⟩
  · by_cases hic : i = c
    · rw [hic, hself, hservice]
    · rw [hother i hic]
  · by_cases hic : i = c
    · rw [hic, hself, hdomain]
    · rw [hother i hic]
  · by_cases hic : i = c
    · exact Or.inr (hic ▸ hc)
    · rw [Scheduler.Holds, hother i hic] at hi
      exact hi

theorem doSchedule_within (s : Scheduler) (now : Nat) (frame : Option TrapFrame) (pre : Bool) :
    (doSchedule s now frame pre).Within s := by
  have hmove := doSchedule_move s now frame pre
  rcases doSchedule_spec s now frame pre with hst | ⟨tf, j, -, hsw⟩
  · refine ⟨⟨fun i => ident_serviceId (hmove i).ident, fun i => ident_domainId (hmove i).ident, fun i hi => ?_⟩, fun handoff h => ?_⟩
    · exact hi.imp (hmove i).live.1 fun hcur => hst.current ▸ hcur
    · rw [hst.handoff] at h
      cases h
  · have hj : s.Holds j := Or.inl (runnable_live hsw.runnable)
    refine ⟨⟨fun i => ident_serviceId (hmove i).ident, fun i => ident_domainId (hmove i).ident, fun i hi => ?_⟩, fun handoff h => ?_⟩
    · rcases hi with hlive | hcur
      · exact Or.inl ((hmove i).live.1 hlive)
      · rw [hsw.current] at hcur
        cases hcur
        exact hj
    · rw [hsw.handoff] at h
      cases h
      refine ⟨j, hj, rfl, fun d hd => ?_⟩
      dsimp only at hd
      split at hd
      · cases hd
      · cases hd
        rfl

theorem setTask_schedule_within {c : Slot} (hc : s.current = some c) {t : Task} (hservice : t.serviceId = (s.tasks c).serviceId)
    (hdomain : t.domainId = (s.tasks c).domainId) (now : Nat) (frame : Option TrapFrame) (pre : Bool) :
    (doSchedule (s.setTask c t) now frame pre).Within s :=
  (within_setTask hc hservice hdomain).result (doSchedule_within ..)

theorem schedulerYield_within (s : Scheduler) (now : BitVec 64) (frame : Option TrapFrame) :
    (schedulerYield s now frame).Within s := by
  unfold schedulerYield
  split
  · exact ⟨.refl s, fun _ h => nomatch h⟩
  · rename_i c hc
    refine setTask_schedule_within hc ?_ ?_ _ _ _ <;> rfl

theorem sysNanosleep_within (v : Services) (s : Scheduler) (now : BitVec 64) (req rem : Reg) (frame : Option TrapFrame) :
    (sysNanosleep v s now req rem frame).1.Within s := by
  have hstay : (⟨s, frame, none⟩ : ScheduleResult).Within s := ⟨.refl s, fun _ h => nomatch h⟩
  unfold sysNanosleep schedulerSleepCurrent
  split
  · exact hstay
  · dsimp only
    split
    · exact hstay
    · split
      · exact hstay
      · dsimp only
        split
        · exact hstay
        · rename_i c hc
          refine setTask_schedule_within hc ?_ ?_ _ _ _ <;> rfl

end

/-! ## Exceptions bring in what is called -/

/-- Who takes part in `m'` takes part in `m`. -/
structure Machine.Within (m m' : Machine) : Prop where
  identity : ∀ id, m'.Identity id → m.Identity id
  place : ∀ d, m'.Place d → m.Place d

section
variable {arch : Arch} {m : Machine}

theorem Machine.Within.refl (m : Machine) : m.Within m := ⟨fun _ => id, fun _ => id⟩

theorem mmuEnter_domain (arch : Arch) (d : DomainId) (s : Mmu) :
    (arch.mmuEnter d s).currentDomain = s.currentDomain ∨ (arch.mmuEnter d s).currentDomain = d := by
  unfold Arch.mmuEnter
  split
  · exact Or.inl rfl
  · split
    · exact Or.inl rfl
    · exact Or.inr rfl

theorem Machine.Within.trans {m' m'' : Machine} (h : m.Within m') (h' : m'.Within m'') : m.Within m'' :=
  ⟨fun id hid => h.identity id (h'.identity id hid), fun d hd => h.place d (h'.place d hd)⟩

/-- The status or the registers say nothing of who takes part. -/
theorem Machine.Within.exec {m' : Machine} (h : m.Within m') (exec : Execution) : m.Within { m' with exec } := ⟨h.identity, h.place⟩

theorem within_sched {s : Scheduler} (h : m.sched.Within s) : m.Within { m with sched := s } where
  identity := fun _ hid => hid.imp_right (Or.imp_right fun ⟨i, hi, heq⟩ => ⟨i, h.holds i hi, h.serviceId i ▸ heq⟩)
  place := fun _ hd => hd.imp_right (Or.imp_right fun ⟨i, hi, heq⟩ => ⟨i, h.holds i hi, h.domainId i ▸ heq⟩)

theorem scheduled_within {r : ScheduleResult} (h : r.Within m.sched) (frame : TrapFrame) : m.Within (arch.scheduled m frame r) := by
  have hsched : m.Within { m with sched := r.sched } := within_sched h.sched
  unfold Arch.scheduled
  cases hhandoff : r.handoff with
  | none => exact hsched.exec _
  | some handoff =>
    obtain ⟨j, hj, hservice, hdomain⟩ := h.handoff handoff hhandoff
    refine ⟨fun id hid => ?_, fun d hd => ?_⟩
    · rcases hid with hid | hid
      · exact Or.inr (Or.inr ⟨j, hj, (hid.trans hservice).symm⟩)
      · exact hsched.identity id (Or.inr hid)
    · rcases hd with hd | hd
      · dsimp only at hd
        split at hd
        · exact Or.inl hd
        · rename_i d' hd'
          rcases mmuEnter_domain arch d' m.protection with hstay | henter
          · exact Or.inl (hd.trans hstay)
          · exact Or.inr (Or.inr ⟨j, hj, by rw [hd, henter, hdomain d' hd']⟩)
      · exact hsched.place d (Or.inr hd)

/-- The caller that a return resumes was on the stack. -/
theorem svcReturn_within (frame : TrapFrame) : m.Within (arch.svcReturn m frame) := by
  cases hstack : m.stack with
  | nil =>
    rw [svcReturn_nil arch hstack]
    exact (Machine.Within.refl m).exec _
  | cons f rest =>
    rw [svcReturn_cons arch hstack]
    have hf : f ∈ m.stack := hstack ▸ List.mem_cons_self ..
    have hrest : ∀ f' ∈ rest, f' ∈ m.stack := fun f' h => hstack ▸ List.mem_cons_of_mem _ h
    refine ⟨fun id hid => ?_, fun d hd => ?_⟩
    · rcases hid with hid | ⟨f', hf', hid⟩ | htask
      · exact Or.inr (Or.inl ⟨f, hf, hid.symm⟩)
      · exact Or.inr (Or.inl ⟨f', hrest f' hf', hid⟩)
      · exact Or.inr (Or.inr htask)
    · rcases hd with hd | ⟨f', hf', hd⟩ | htask
      · rcases mmuEnter_domain arch f.domainId m.protection with hstay | henter
        · exact Or.inl (hd.trans hstay)
        · exact Or.inr (Or.inl ⟨f, hf, (hd.trans henter).symm⟩)
      · exact Or.inr (Or.inl ⟨f', hrest f' hf', hd⟩)
      · exact Or.inr (Or.inr htask)

/-- What a call adds: the target, if the caller is entitled to it, and its domain. -/
theorem svcCall_within (arch : Arch) {h : GateHistory Mmu} (hb : Backed h m.toGateState) (kind : GateKind) (frame : TrapFrame) :
    m.Within (arch.svcCall m kind frame) ∨
      ∃ target, Entitled h m.toKernel m.currentServiceId target.id ∧ registryLookup m.services target.id = some target ∧
        (∀ id, (arch.svcCall m kind frame).Identity id → m.Identity id ∨ id = target.id) ∧
        ∀ d, (arch.svcCall m kind frame).Place d → m.Place d ∨ d = target.domain := by
  rcases svcCall_cases arch m kind frame with ⟨-, status, heq⟩ | ⟨-, r, hr, -, heq⟩
  · rw [heq]
    exact Or.inl ((Machine.Within.refl m).exec _)
  · have htarget := (svcResolve_ok hr).target
    obtain ⟨-, -, hid, -⟩ := registryLookup_eq_some.1 htarget
    rw [heq]
    refine Or.inr ⟨r.target, entitled_of_resolved hb hr, hid.symm ▸ htarget, fun id h => ?_, fun d h => ?_⟩
    · rcases h with h | ⟨f, hf, h⟩ | htask
      · exact Or.inr h
      · rcases List.mem_cons.1 hf with rfl | hf
        · exact Or.inl (Or.inl h.symm)
        · exact Or.inl (Or.inr (Or.inl ⟨f, hf, h⟩))
      · exact Or.inl (Or.inr (Or.inr htask))
    · rcases h with h | ⟨f, hf, h⟩ | htask
      · unfold Arch.callMmu at h
        dsimp only at h
        split at h
        · exact Or.inr h
        · rcases mmuEnter_domain arch r.target.domain m.protection with hstay | henter
          · exact Or.inl (Or.inl (h.trans hstay))
          · exact Or.inr (h.trans henter)
      · rcases List.mem_cons.1 hf with rfl | hf
        · exact Or.inl (Or.inl h.symm)
        · exact Or.inl (Or.inr (Or.inl ⟨f, hf, h⟩))
      · exact Or.inl (Or.inr (Or.inr htask))

/-- The other exceptions add nobody. -/
theorem trapStep_within {t : Trap} (ht : ∀ kind, t ≠ .svcCall kind) (frame : TrapFrame) : m.Within (arch.trapStep m t frame) := by
  cases t with
  | svcReturn => exact svcReturn_within frame
  | svcCall kind => exact absurd rfl (ht kind)
  | svcYield => exact scheduled_within (schedulerYield_within ..) frame
  | timer =>
    simp only [Arch.trapStep, Arch.irqLowerEl]
    split
    · have hticks : m.Within { m with timerTicks := m.timerTicks + 1 } := ⟨fun _ => id, fun _ => id⟩
      refine hticks.trans (scheduled_within ?_ frame)
      exact doSchedule_within ..
    · exact ⟨fun _ => id, fun _ => id⟩
  | dataAbort =>
    simp only [Arch.trapStep, Arch.dataAbort]
    split <;> exact ⟨fun _ => id, fun _ => id⟩
  | sysregTrap =>
    simp only [Arch.trapStep, Arch.sysregTrap]
    split <;> exact ⟨fun _ => id, fun _ => id⟩
  | fatal => exact ⟨fun _ => id, fun _ => id⟩

theorem setResult_within (value : Reg) : m.Within (m.setResult value) := by
  unfold Machine.setResult
  split <;> exact ⟨fun _ => id, fun _ => id⟩

theorem svcSyscall_within (v : Services) (frame : TrapFrame) : m.Within (arch.svcSyscall m v frame).1 := by
  unfold Arch.svcSyscall
  split
  · exact (Machine.Within.refl m).exec _
  · split
    · exact (Machine.Within.refl m).exec _
    · have hsched : m.Within (arch.scheduled m frame (sysNanosleep v m.sched m.timerTicks frame.arg0 frame.arg1 (some frame)).1) :=
        scheduled_within (sysNanosleep_within ..) frame
      exact hsched.trans (setResult_within _)

end

/-! ## The closure -/

section
variable {arch : Arch} {h : GateHistory Mmu}

theorem entitled_congr {k k' : Kernel} (hservices : k'.services = k.services) : Entitled h k' = Entitled h k := by
  have hmono : ∀ {k k' : Kernel}, k'.services = k.services → ∀ {s t}, Entitled h k s t → Entitled h k' s t := by
    rintro k k' hk s t ⟨kind, msg, entry, hmsg, hauth⟩
    refine ⟨kind, msg, entry, hmsg, ?_, hauth.dispatched, hauth.granted⟩
    dsimp only
    rw [hk]
    exact hauth.services
  funext s t
  exact propext ⟨hmono hservices.symm, hmono hservices⟩

/-- All that takes part in `m'` is in `m` already or can be reached from there. -/
structure Machine.Closed (h : GateHistory Mmu) (m m' : Machine) : Prop where
  tables : m.SameTables m'
  identity : ∀ t, m'.Identity t → Reached h m t
  place : ∀ d, m'.Place d → m.Place d ∨ ∃ target, Reached h m target.id ∧ registryLookup m.services target.id = some target ∧
    target.domain = d

namespace Machine.Closed

variable {m m' m'' : Machine}

theorem refl (h : GateHistory Mmu) (m : Machine) : m.Closed h m :=
  ⟨⟨rfl, rfl⟩, fun t ht => ⟨t, ht, .refl⟩, fun _ hd => Or.inl hd⟩

theorem within (hc : m.Closed h m') (htables : m'.SameTables m'') (hw : m'.Within m'') : m.Closed h m'' :=
  ⟨hc.tables.trans htables, fun t ht => hc.identity t (hw.identity t ht), fun d hd => hc.place d (hw.place d hd)⟩

theorem trap (hb : Backed h m.toGateState) (hc : m.Closed h m') (t : Trap) (frame : TrapFrame) :
    m.Closed h (arch.trapStep m' t frame) := by
  have htables : m'.SameTables (arch.trapStep m' t frame) := trapStep_tables t frame
  by_cases hcall : ∃ kind, t = .svcCall kind
  · obtain ⟨kind, rfl⟩ := hcall
    have hb' : Backed h m'.toGateState := hb.congr hc.tables.services hc.tables.caps
    rcases svcCall_within arch hb' kind frame with hw | ⟨target, hentitled, hregistered, hidentity, hplace⟩
    · exact hc.within htables hw
    · -- the caller takes part, so the target can be reached
      obtain ⟨s, hs, hpath⟩ := hc.identity _ (Or.inl rfl)
      rw [entitled_congr hc.tables.services] at hentitled
      have hreached : Reached h m target.id := ⟨s, hs, hpath.tail hentitled⟩
      rw [hc.tables.services] at hregistered
      refine ⟨hc.tables.trans htables, fun t ht => ?_, fun d hd => ?_⟩
      · rcases hidentity t ht with hold | rfl
        · exact hc.identity t hold
        · exact hreached
      · rcases hplace d hd with hold | rfl
        · exact hc.place d hold
        · exact Or.inr ⟨target, hreached, hregistered, rfl⟩
  · exact hc.within htables (trapStep_within (fun kind hkind => hcall ⟨kind, hkind⟩) frame)

end Machine.Closed

theorem closed_step {b b' : Board} (hb : Backed h b.machine.toGateState) (hc : b.machine.Closed h b'.machine) {e : BoardEvent}
    (he : e.FromEl0) : b.machine.Closed h (boardStep arch b' e).machine := by
  have hrefl := Machine.Within.refl b'.machine
  cases e with
  | machine e =>
    cases e with
    | trap t frame =>
      simp only [boardStep]
      cases hel0 : b'.machine.inEl0 with
      | true =>
        rw [machineStep_trap arch hel0]
        exact hc.trap hb t frame
      | false =>
        rw [machineStep_trap_of_not arch hel0]
        exact hc
    | _ => exact absurd he id
  | syscall frame counter device =>
    simp only [boardStep, Board.syscall]
    repeat' split
    · exact hc.within (svcSyscall_tables _ frame) (svcSyscall_within _ frame)
    · exact hc.within ⟨rfl, rfl⟩ (hrefl.exec _)
    · exact hc
  | store va value =>
    simp only [boardStep]
    repeat' split
    all_goals exact hc
  | invalidateDomain domain =>
    simp only [boardStep]
    split <;> exact hc
  | _ => exact hc

theorem closed_endState (arch : Arch) {b b' : Board} (hb : Backed h b.machine.toGateState) (hc : b.machine.Closed h b'.machine)
    {es : List BoardEvent} (hes : ∀ e ∈ es, e.FromEl0) : b.machine.Closed h (endState (boardStep arch) b' es).machine := by
  induction es generalizing b' with
  | nil => exact hc
  | cons e es ih =>
    exact ih (closed_step hb hc (hes e (List.mem_cons_self ..))) fun e' he' => hes e' (List.mem_cons_of_mem _ he')

end

section
variable (L : Layout) (before : Translation.Memory) (frequency : BitVec 64)

/-- **Authority is closed**: from any state of a run, as long as only EL0 code, interrupts and the hardware act, whoever
takes part took part before or is reached by a chain of calls, each with an operation dispatched to the callee and
a capability granted to the caller before. The domains are theirs. -/
theorem authority_closed {ok : Board → BoardEvent → Prop} {h : List (Board × BoardEvent)} {b : Board}
    (r : Run ok (boardStep L.toArch) (Board.boot L before frequency) h b) {es : List BoardEvent} (hes : ∀ e ∈ es, e.FromEl0) :
    (∀ t, (endState (boardStep L.toArch) b es).machine.Identity t → Reached (kernelOperations h) b.machine t) ∧
      ∀ d, (endState (boardStep L.toArch) b es).machine.Place d → b.machine.Place d ∨
        ∃ target, Reached (kernelOperations h) b.machine target.id ∧ registryLookup b.machine.services target.id = some target ∧
          target.domain = d := by
  have hc := closed_endState L.toArch (board_backed r) (.refl _ b.machine) hes
  exact ⟨hc.identity, hc.place⟩

/-- The board of main.c, while the camera runs; it may call the display, and the sensor in domain C. -/
def cameraSetUp : List BoardEvent :=
  (boardSetUp domainC).map (fun e => .machine e) ++ [enterA]

def cameraBoard : List (Board × BoardEvent) × Board :=
  traceFrom (boardStep consecutiveLayout.toArch) [] exampleBoard cameraSetUp

theorem authority_closed_display : Reached (kernelOperations cameraBoard.1) cameraBoard.2.machine 20 := by
  have r : Run anyStep (boardStep consecutiveLayout.toArch) (Board.boot consecutiveLayout (fun _ => 0) 62500000)
      cameraBoard.1 cameraBoard.2 := Run.start.trace (admits_anyStep _ _)
  have hes : ∀ e ∈ [BoardEvent.machine (.trap (.svcCall .sameLayer) callDisplay)], e.FromEl0 := by
    simp only [List.mem_singleton, forall_eq, BoardEvent.FromEl0]
  have hcurrent : (endState (boardStep consecutiveLayout.toArch) cameraBoard.2
      [.machine (.trap (.svcCall .sameLayer) callDisplay)]).machine.currentServiceId = 20 := by decide
  exact (authority_closed consecutiveLayout (fun _ => 0) 62500000 r hes).1 20 (Or.inl hcurrent.symm)

/-- No service that can be reached lives in domain `d`. -/
def Unreached (h : GateHistory Mmu) (m : Machine) (d : DomainId) : Prop :=
  ¬ m.Place d ∧ ∀ target, registryLookup m.services target.id = some target → target.domain = d → ¬ Reached h m target.id

theorem Machine.Closed.away {h : GateHistory Mmu} {m m' : Machine} (hc : m.Closed h m') {d : DomainId} (hd : Unreached h m d) :
    m'.protection.currentDomain ≠ d := by
  intro hcurrent
  rcases hc.place d (Or.inl hcurrent.symm) with hplace | ⟨target, hreached, hregistered, hdomain⟩
  · exact hd.1 hplace
  · exact hd.2 target hregistered hdomain hreached

theorem discreet_of_unreached {arch : Arch} {h : GateHistory Mmu} {b b' : Board} (hb : Backed h b.machine.toGateState)
    (hc : b.machine.Closed h b'.machine) {d : DomainId} (hd : Unreached h b.machine d) {es : List BoardEvent}
    (ha : Admits BoardOk (boardStep arch) b' es) (hes : ∀ e ∈ es, e.FromEl0)
    (hsleep : ∀ frame counter device, .syscall frame counter device ∈ es → syscallOf frame.sysNo = some .nanosleep →
      inSupervisorMemory (frame.arg0 + nsecOffset) = false) : Admits (Discreet d) (boardStep arch) b' es := by
  induction es generalizing b' with
  | nil => trivial
  | cons e es ih =>
    have he := hes e (List.mem_cons_self ..)
    refine ⟨⟨ha.1, ?_⟩, ih (closed_step hb hc he) ha.2 (fun e' he' => hes e' (List.mem_cons_of_mem _ he'))
      fun frame counter device hmem => hsleep frame counter device (List.mem_cons_of_mem _ hmem)⟩
    cases e with
    | syscall frame counter device => exact ⟨hc.away hd, hsleep frame counter device (List.mem_cons_self ..)⟩
    | _ => trivial

/-- **Unreached domains**: if no service of domain `d` takes part or can be reached by authorised calls, then, as long as the
kernel does nothing of its own, no byte of the domain's private page and stack changes, and nothing that is loaded,
printed or scheduled depends on them. -/
theorem unreached_domain_untouched (hL : L.WellPlaced) {h : List (Board × BoardEvent)} {b : Board}
    (r : Run BoardOk (boardStep L.toArch) (Board.boot L before frequency) h b) {es : List BoardEvent}
    (ha : Admits BoardOk (boardStep L.toArch) b es) (hes : ∀ e ∈ es, e.FromEl0)
    (hsleep : ∀ frame counter device, .syscall frame counter device ∈ es → syscallOf frame.sysNo = some .nanosleep →
      inSupervisorMemory (frame.arg0 + nsecOffset) = false)
    {d : DomainId} (hd : KnownDomain d) (hout : Unreached (kernelOperations h) b.machine d) :
    (∀ pa, L.Own d pa → (endState (boardStep L.toArch) b es).memory pa = b.memory pa) ∧
      ∀ memory, (∀ pa, ¬ L.Own d pa → b.memory pa = memory pa) →
        outputs (boardStep L.toArch) (seenOutside d) b es = outputs (boardStep L.toArch) (seenOutside d) { b with memory } es ∧
          Board.AgreeOutside L d (endState (boardStep L.toArch) b es) (endState (boardStep L.toArch) { b with memory } es) := by
  have hs := Board.Sound.run hL r
  have hb := board_backed r
  have hrefl := Machine.Closed.refl (kernelOperations h) b.machine
  refine ⟨fun pa hown => ?_, fun memory hmemory => hs.invisible hL hd hmemory (discreet_of_unreached hb hrefl hout ha hes hsleep)⟩
  by_contra hne
  -- a change would have been made in the domain
  obtain ⟨first, e, rest, rfl, -, -, hdomain⟩ := hs.changed_at_home hL ha hd hown hne
  have hfirst := closed_endState L.toArch hb hrefl fun e' he' => hes e' (List.mem_append_left _ he')
  exact hfirst.away hout hdomain

/-- The camera runs, with a capability on the display and none on the sensor in domain C. -/
def displayOnlySetUp : List BoardEvent :=
  ([.registryRegister ⟨10, 3, domainA, 1⟩, .registryRegister ⟨20, 3, domainB, 1⟩, .registryRegister ⟨40, 2, domainC, 1⟩,
    .dispatchRegister 20 1 0x41050000, .dispatchRegister 40 1 0x41050100, .capabilityInit,
    .capabilityCreate 10 20 1 capCall 1] : List KernelEvent).map (fun e => .machine (.kernel e)) ++ [enterA]

def displayOnlyBoard : List (Board × BoardEvent) × Board :=
  traceFrom (boardStep consecutiveLayout.toArch) [] exampleBoard displayOnlySetUp

theorem displayOnlyBoard_run : Run BoardOk (boardStep consecutiveLayout.toArch)
    (Board.boot consecutiveLayout (fun _ => 0) 62500000) displayOnlyBoard.1 displayOnlyBoard.2 :=
  Run.start.trace (show Admits BoardOk _ _ displayOnlySetUp from
    ⟨Or.inl rfl, Or.inr (Or.inl rfl), Or.inr (Or.inr rfl), trivial, trivial, trivial, trivial, trivial, trivial⟩)

/-- The operations of the kernel, most recent first. -/
theorem displayOnlyBoard_operations : (kernelOperations displayOnlyBoard.1).map Prod.snd =
    [.capabilityCreate 10 20 1 capCall 1, .capabilityInit, .dispatchRegister 40 1 0x41050100, .dispatchRegister 20 1 0x41050000,
      .registryRegister ⟨40, 2, domainC, 1⟩, .registryRegister ⟨20, 3, domainB, 1⟩, .registryRegister ⟨10, 3, domainA, 1⟩] := by
  rfl

/-- There is one capability, so the camera may call the display and nobody may call anyone else. -/
theorem displayOnlyBoard_entitled {k : Kernel} {s t : ServiceId} (h : Entitled (kernelOperations displayOnlyBoard.1) k s t) :
    s = 10 ∧ t = 20 := by
  obtain ⟨kind, msg, entry, rfl, hauthorized⟩ := h
  obtain ⟨permissions, -, hsince⟩ := hauthorized.granted
  obtain ⟨x, hx, hgrant, -⟩ := hsince.exists_mem
  have hmem := List.mem_map_of_mem (f := Prod.snd) hx
  rw [displayOnlyBoard_operations, hgrant] at hmem
  simp only [List.mem_cons, KernelEvent.capabilityCreate.injEq, reduceCtorEq, List.not_mem_nil, or_false] at hmem
  exact ⟨hmem.1, hmem.2.1⟩

theorem displayOnlyBoard_unreached : Unreached (kernelOperations displayOnlyBoard.1) displayOnlyBoard.2.machine domainC := by
  have hsched : displayOnlyBoard.2.machine.sched = schedulerBoot := rfl
  have hstack : displayOnlyBoard.2.machine.stack = [] := rfl
  have hcurrent : displayOnlyBoard.2.machine.currentServiceId = 10 := rfl
  have hdomain : displayOnlyBoard.2.machine.protection.currentDomain = domainA := rfl
  have hidle : ∀ i, ¬ schedulerBoot.Holds i := by
    rintro i (hlive | hcurrent)
    · exact hlive.1 rfl
    · cases hcurrent
  refine ⟨?_, fun target hregistered htarget hreached => ?_⟩
  · rintro (hplace | ⟨f, hf, -⟩ | ⟨i, hi, -⟩)
    · exact absurd (hplace.trans hdomain) (by decide)
    · rw [hstack] at hf
      cases hf
    · exact hidle i (hsched ▸ hi)
  · -- the services of domain C were registered there, and the sensor is the only one
    obtain ⟨x, hx, hregisters, -⟩ :=
      ((board_backed displayOnlyBoard_run).registered target.id target hregistered).exists_mem
    have hmem := List.mem_map_of_mem (f := Prod.snd) hx
    rw [displayOnlyBoard_operations, hregisters] at hmem
    have hsensor : target = ⟨40, 2, domainC, 1⟩ := by
      simp only [List.mem_cons, List.not_mem_nil, or_false, reduceCtorEq, false_or, KernelEvent.registryRegister.injEq] at hmem
      rcases hmem with rfl | rfl | rfl
      · rfl
      · exact absurd htarget (by decide)
      · exact absurd htarget (by decide)
    obtain ⟨s, hs, hpath⟩ := hreached
    have hcamera : s = 10 := by
      rcases hs with hs | ⟨f, hf, -⟩ | ⟨i, hi, -⟩
      · exact hs.trans hcurrent
      · rw [hstack] at hf
        cases hf
      · exact absurd (hsched ▸ hi) (hidle i)
    have hend : target.id = 10 ∨ target.id = 20 := by
      rcases hpath.cases_tail with heq | ⟨t, -, hlast⟩
      · exact Or.inl (heq.trans hcamera)
      · exact Or.inr (displayOnlyBoard_entitled hlast).2
    rw [hsensor] at hend
    exact absurd hend (by decide)

/-- While the camera calls the display and that stores into its own page, the private page of domain C keeps its bytes. -/
theorem unreached_domain_untouched_sensor :
    (endState (boardStep consecutiveLayout.toArch) displayOnlyBoard.2
      [.machine (.trap (.svcCall .sameLayer) callDisplay), .store 0x41100010 7, .machine (.trap .svcReturn callDisplay)]).memory
        0x4010e000 = displayOnlyBoard.2.memory 0x4010e000 := by
  have hown : consecutiveLayout.Own domainC 0x4010e000 := by decide
  have r := displayOnlyBoard_run
  have hout := displayOnlyBoard_unreached
  generalize displayOnlyBoard.1 = h, displayOnlyBoard.2 = b at r hout ⊢
  have ha : Admits BoardOk (boardStep consecutiveLayout.toArch) b
      [.machine (.trap (.svcCall .sameLayer) callDisplay), .store 0x41100010 7, .machine (.trap .svcReturn callDisplay)] :=
    ⟨trivial, trivial, trivial, trivial⟩
  refine (unreached_domain_untouched consecutiveLayout (fun _ => 0) 62500000 consecutiveLayout_wellPlaced r ha ?_ ?_
    (Or.inr (Or.inr rfl)) hout).1 _ hown
  · simp only [List.mem_cons, List.not_mem_nil, or_false, forall_eq_or_imp, forall_eq, BoardEvent.FromEl0, and_self]
  · simp

end

end Lettuce
