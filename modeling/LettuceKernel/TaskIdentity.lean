import LettuceKernel.Cpu
/-!
# Identity and address space across a switch

`do_schedule` gives the task it switches to its home identity: `service_id`, and `domain_id`
through `lettuce_mmu_enter`, which it skips when the two tasks have the same home domain
(scheduler.c:176-189). A call changes the live identity and domain of a task, and the switch
saves neither. `lastIdentity` reads off the history what was in force when a task was last
switched out; `switches_restore_identity` says that it comes back as long as tasks are
switched out only at home.
-/

namespace Lettuce

open Runs

/-- Service and domain of a task outside any call. -/
def Task.home (t : Task) : ServiceId × DomainId := (t.serviceId, t.domainId)

/-- The live service and domain. -/
def Machine.identity (m : Machine) : ServiceId × DomainId := (m.currentServiceId, m.protection.currentDomain)

/-- The identity in force when task `i` was last switched out. -/
def Arch.lastIdentity (arch : Arch) : MachineHistory → Slot → Option (ServiceId × DomainId)
  | [], _ => none
  | (m, e) :: h, i =>
    if m.sched.current = some i ∧ (arch.machineStep m e).sched.current ≠ some i then some m.identity
    else arch.lastIdentity h i

/-- Every switch of the run puts back the identity and the address space the task had. -/
def Arch.RestoresIdentity (arch : Arch) : MachineHistory → Prop
  | [] => True
  | (m, e) :: h =>
    (∀ j, m.sched.current ≠ some j → (arch.machineStep m e).sched.current = some j →
      (arch.machineStep m e).identity = (arch.lastIdentity h j).getD (m.sched.tasks j).home ∧
      (arch.machineStep m e).protection.ttbr0 =
        arch.domainTtbr0Val (arch.machineStep m e).protection.currentDomain) ∧
    arch.RestoresIdentity h

/-- A task is switched out only while it runs as its own service in its own domain. -/
def SwitchesAtHome (m : Machine) : MachineEvent → Prop
  | .trap t frame => m.inEl0 = true → m.SwitchDue t frame →
      ∀ c, m.sched.current = some c → m.identity = (m.sched.tasks c).home
  | _ => True

/-- The steps of the runs below. -/
def HomeStep (m : Machine) (e : MachineEvent) : Prop := TaskTrap e ∧ SwitchesAtHome m e

/-- Whoever was switched out was at home. -/
structure AtHome (arch : Arch) (h : MachineHistory) (m : Machine) : Prop where
  last : ∀ i v, arch.lastIdentity h i = some v → v = (m.sched.tasks i).home
  known : ∀ i, (m.sched.tasks i).Live → KnownDomain (m.sched.tasks i).domainId
  consistent : m.protection.Consistent arch

theorem TaskMove.home {t t' : Task} (h : TaskMove t t') : t'.home = t.home := by
  simp only [Task.home, ident_serviceId h.ident, ident_domainId h.ident]

section
variable {arch : Arch} {h : MachineHistory} {m m' : Machine}

/-- A step that moves no task onto or off the processor. -/
theorem AtHome.stay (hm : AtHome arch h m) {e : MachineEvent} (heq : arch.machineStep m e = m')
    (hmove : ∀ i, TaskMove (m.sched.tasks i) (m'.sched.tasks i)) (hcur : m'.sched.current = m.sched.current) :
    AtHome arch ((m, e) :: h) m' ∧ (arch.RestoresIdentity h → arch.RestoresIdentity ((m, e) :: h)) := by
  have hcons := machineStep_consistent hm.consistent e
  rw [heq] at hcons
  refine ⟨⟨fun i v hv => ?_, fun i hl => ?_, hcons⟩, fun hr => ⟨fun j hne hj => ?_, hr⟩⟩
  · rw [(hmove i).home]
    refine hm.last i v ?_
    simp only [Arch.lastIdentity, heq, hcur] at hv
    rwa [if_neg fun hc => hc.2 hc.1] at hv
  · rw [ident_domainId (hmove i).ident]
    exact hm.known i ((hmove i).live.1 hl)
  · rw [heq, hcur] at hj
    exact absurd hj hne

/-- A switch from a task at home: the next task is put into its own home, also when
`lettuce_mmu_enter` is skipped. -/
theorem AtHome.switched (hm : AtHome arch h m) {t : Trap} {j : Slot} (hsw : m.SwitchesTo arch t j m')
    (hhome : ∀ c, m.sched.current = some c → m.identity = (m.sched.tasks c).home) :
    m'.identity = (m.sched.tasks j).home := by
  obtain ⟨sched, ticks, rfl⟩ := hsw.eq
  simp only [Machine.identity, Task.home, Prod.mk.injEq, true_and]
  cases hsame : sameDomain m.sched j with
  | true =>
    simp only [sameDomain] at hsame
    split at hsame
    · cases hsame
    · rename_i c hc
      have hdom := congrArg Prod.snd (hhome c hc)
      exact hdom.trans (of_decide_eq_true hsame).symm
  | false =>
    simp only [Bool.false_eq_true, ↓reduceIte]
    rw [mmuEnter_known hm.consistent (hm.known j hsw.live)]

theorem AtHome.switch (hm : AtHome arch h m) {t : Trap} {frame : TrapFrame} {j : Slot}
    (heq : arch.machineStep m (.trap t frame) = m') (hsw : m.SwitchesTo arch t j m')
    (hhome : ∀ c, m.sched.current = some c → m.identity = (m.sched.tasks c).home) :
    AtHome arch ((m, .trap t frame) :: h) m' ∧
      (arch.RestoresIdentity h → arch.RestoresIdentity ((m, .trap t frame) :: h)) := by
  have hcons := machineStep_consistent hm.consistent (.trap t frame)
  rw [heq] at hcons
  refine ⟨⟨fun i v hv => ?_, fun i hl => ?_, hcons⟩, fun hr => ⟨fun k _ hk => ?_, hr⟩⟩
  · rw [(hsw.move i).home]
    simp only [Arch.lastIdentity, heq] at hv
    split at hv
    · rename_i hout
      cases hv
      exact hhome i hout.1
    · exact hm.last i v hv
  · rw [ident_domainId (hsw.move i).ident]
    exact hm.known i ((hsw.move i).live.1 hl)
  · rw [heq] at hk ⊢
    have hjk : j = k := Option.some.inj (hsw.current.symm.trans hk)
    subst hjk
    refine ⟨?_, hcons⟩
    rw [hm.switched hsw hhome]
    cases hlast : arch.lastIdentity h j with
    | none => rfl
    | some v => exact (hm.last j v hlast).symm

theorem AtHome.trapStep (hm : AtHome arch h m) (hin : m.inEl0 = true) {t : Trap} {frame : TrapFrame}
    (ht : TaskTrap (.trap t frame)) (hok : SwitchesAtHome m (.trap t frame)) :
    AtHome arch ((m, .trap t frame) :: h) (arch.trapStep m t frame) ∧
      (arch.RestoresIdentity h → arch.RestoresIdentity ((m, .trap t frame) :: h)) := by
  have heq := machineStep_trap arch hin t frame
  have hsched := fun ht => yieldOrTick_cases arch m (t := t) ht frame
  cases t with
  | svcReturn =>
    have hsched : (arch.trapStep m .svcReturn frame).sched = m.sched := by
      simp only [Arch.trapStep]
      cases hstack : m.stack with
      | nil => rw [svcReturn_nil arch hstack]
      | cons f rest => rw [svcReturn_cons arch hstack]
    exact hm.stay heq (fun i => by rw [hsched]; exact TaskMove.refl _) (by rw [hsched])
  | svcCall kind =>
    have hsched : (arch.trapStep m (.svcCall kind) frame).sched = m.sched := by
      simp only [Arch.trapStep]
      rcases svcCall_cases arch m kind frame with ⟨-, status, hcall⟩ | ⟨-, r, -, -, hcall⟩
      · rw [hcall]
      · rw [hcall]
    exact hm.stay heq (fun i => by rw [hsched]; exact TaskMove.refl _) (by rw [hsched])
  | svcYield | timer =>
    rcases hsched (by simp) with ⟨-, hc⟩ | ⟨hdue, j, hsw⟩
    · exact hm.stay heq hc.move hc.current
    · exact hm.switch heq hsw (hok hin hdue)
  | _ => exact ht.elim

theorem AtHome.step (hm : AtHome arch h m) {e : MachineEvent} (he : HomeStep m e) :
    AtHome arch ((m, e) :: h) (arch.machineStep m e) ∧
      (arch.RestoresIdentity h → arch.RestoresIdentity ((m, e) :: h)) := by
  cases e with
  | trap t frame =>
    cases hin : m.inEl0 with
    | true =>
      have hstep := hm.trapStep hin he.1 he.2
      rw [← machineStep_trap arch hin] at hstep
      exact hstep
    | false =>
      have heq := machineStep_trap_of_not arch hin t frame
      rw [heq]
      exact hm.stay heq (fun _ => TaskMove.refl _) rfl
  | _ => exact he.1.elim

end

/-- **A switch restores identity and address space** in every run of calls, returns, yields and
ticks that starts in a reachable state, over tasks in known domains, if tasks are switched out
only at home: the task switched to runs as the service and in the domain it had when it was
last switched out, or in its home if it never was, and TTBR0 follows. -/
theorem switches_restore_identity (arch : Arch) {h₀ h : MachineHistory} {m₀ m : Machine}
    (r₀ : Run anyStep arch.machineStep arch.machineBoot h₀ m₀)
    (hdomains : ∀ i, (m₀.sched.tasks i).Live → KnownDomain (m₀.sched.tasks i).domainId)
    (r : Run HomeStep arch.machineStep m₀ h m) : arch.RestoresIdentity h := by
  suffices hboth : arch.RestoresIdentity h ∧ AtHome arch h m from hboth.1
  induction r with
  | start =>
    refine ⟨trivial, ?_, hdomains, machineRun_consistent r₀ mmuInit_consistent⟩
    rintro i v ⟨⟩
  | next r e hok ih =>
    obtain ⟨hhome, hrestored⟩ := ih.2.step hok
    exact ⟨hrestored ih.1, hhome⟩

/-- The camera calls the display and returns before it hands over; the display's task hands back. -/
def switchesAtHome : List MachineEvent :=
  [.trap (.svcCall .sameLayer) callDisplay, .trap .svcReturn callDisplay, .trap .svcYield callDisplay,
    .trap .svcYield callDisplay]

theorem twoTaskRun_domains (i : Slot) : (twoTaskRun.2.sched.tasks i).Live →
    KnownDomain (twoTaskRun.2.sched.tasks i).domainId := by
  revert i
  unfold Task.Live
  decide +kernel

theorem switches_restore_identity_yield :
    boardArch.RestoresIdentity (traceFrom boardArch.machineStep [] twoTaskRun.2 switchesAtHome).1 := by
  have hhome : Admits HomeStep boardArch.machineStep twoTaskRun.2 switchesAtHome := by
    refine ⟨⟨trivial, ?_⟩, ⟨trivial, ?_⟩, ⟨trivial, ?_⟩, ⟨trivial, ?_⟩, trivial⟩
    · rintro - ⟨s, now, pre, hs, -⟩
      cases hs
    · rintro - ⟨s, now, pre, hs, -⟩
      cases hs
    · rintro - - c hc
      have hcur : c = 0 := Option.some.inj (hc.symm.trans (by decide +kernel))
      subst hcur
      decide +kernel
    · rintro - - c hc
      have hcur : c = 1 := Option.some.inj (hc.symm.trans (by decide +kernel))
      subst hcur
      decide +kernel
  exact switches_restore_identity boardArch (Run.start.trace (admits_anyStep _ _) :
    Run anyStep boardArch.machineStep boardArch.machineBoot twoTaskRun.1 twoTaskRun.2) twoTaskRun_domains
    (Run.start.trace hhome)

/-- The camera is switched out inside its call of the display, in the display's domain, and comes
back in its own. -/
def switchAbroad : List MachineEvent :=
  [.trap (.svcCall .sameLayer) callDisplay, .trap .svcYield callDisplay, .trap .svcYield callDisplay]

theorem switch_inside_call_loses_identity :
    ¬ ∀ (arch : Arch) h₀ m₀, Run anyStep arch.machineStep arch.machineBoot h₀ m₀ →
      (∀ i, (m₀.sched.tasks i).Live → KnownDomain (m₀.sched.tasks i).domainId) →
      ∀ h m, Run (fun _ e => TaskTrap e) arch.machineStep m₀ h m → arch.RestoresIdentity h := by
  intro hall
  have r : Run (fun _ e => TaskTrap e) boardArch.machineStep twoTaskRun.2
      (traceFrom boardArch.machineStep [] twoTaskRun.2 switchAbroad).1
      (traceFrom boardArch.machineStep [] twoTaskRun.2 switchAbroad).2 :=
    Run.start.trace ⟨trivial, trivial, trivial, trivial⟩
  have hback := (hall boardArch twoTaskRun.1 twoTaskRun.2 (Run.start.trace (admits_anyStep _ _)) twoTaskRun_domains
    _ _ r).1 0 (by decide +kernel) (by decide +kernel)
  exact absurd hback.1 (by decide +kernel)

end Lettuce
