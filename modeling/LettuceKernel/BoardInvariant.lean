import LettuceKernel.Board
/-!
# What holds in every state of the board

`Board.Sound`: the register and the current domain agree, services live in domains that have tables, the ten tables hold
what `lettuce_mmu_init` wrote, and every TLB entry is a walk of one of the three domains. Identifiers tell the
domains apart, and what is not tagged with one is the same in all of them, so switching domains
needs no invalidation (mmu.c:349-371): `Board.Sound.translate`.
-/

namespace Lettuce

open Runs Translation TranslationCache

/-! ## Domains and services of the machine -/

section
variable {arch : Arch} {m : Machine}

/-- The registry and the capability table are those of `m`. -/
structure Machine.SameTables (m m' : Machine) : Prop where
  services : m'.services = m.services
  caps : m'.caps = m.caps

theorem Machine.SameTables.trans {m' m'' : Machine} (h : m.SameTables m') (h' : m'.SameTables m'') : m.SameTables m'' :=
  ⟨h'.services.trans h.services, h'.caps.trans h.caps⟩

theorem scheduled_tables (frame : TrapFrame) (r : ScheduleResult) : m.SameTables (arch.scheduled m frame r) := by
  unfold Arch.scheduled
  split <;> exact ⟨rfl, rfl⟩

theorem scheduled_protection {I : Mmu → Prop} (henter : ∀ d s, I s → I (arch.mmuEnter d s)) (hm : I m.protection)
    (frame : TrapFrame) (r : ScheduleResult) : I (arch.scheduled m frame r).protection := by
  unfold Arch.scheduled
  split
  · exact hm
  · dsimp only
    split
    · exact hm
    · exact henter _ _ hm

theorem setResult_tables (value : Reg) : m.SameTables (m.setResult value) := by
  unfold Machine.setResult
  split <;> exact ⟨rfl, rfl⟩

theorem setResult_protection (value : Reg) : (m.setResult value).protection = m.protection := by
  unfold Machine.setResult
  split <;> rfl

/-- No exception changes a table. -/
theorem trapStep_tables (t : Trap) (frame : TrapFrame) : m.SameTables (arch.trapStep m t frame) := by
  cases t with
  | svcReturn =>
    simp only [Arch.trapStep]
    cases hstack : m.stack with
    | nil => rw [svcReturn_nil arch hstack]; exact ⟨rfl, rfl⟩
    | cons f rest => rw [svcReturn_cons arch hstack]; exact ⟨rfl, rfl⟩
  | svcCall kind =>
    simp only [Arch.trapStep]
    rcases svcCall_cases arch m kind frame with ⟨-, status, heq⟩ | ⟨-, r, -, -, heq⟩
    · rw [heq]; exact ⟨rfl, rfl⟩
    · rw [heq]; exact ⟨rfl, rfl⟩
  | svcYield => exact scheduled_tables frame _
  | timer =>
    simp only [Arch.trapStep, Arch.irqLowerEl]
    split
    · exact ⟨(scheduled_tables frame _).services, (scheduled_tables frame _).caps⟩
    · exact ⟨rfl, rfl⟩
  | dataAbort =>
    simp only [Arch.trapStep, Arch.dataAbort]
    split <;> exact ⟨rfl, rfl⟩
  | sysregTrap =>
    simp only [Arch.trapStep, Arch.sysregTrap]
    split <;> exact ⟨rfl, rfl⟩
  | fatal => exact ⟨rfl, rfl⟩

/-- An exception enters the domains of registered services and of tasks, if they are known. -/
theorem trapStep_domain (hs : KnownServices m.services) (hd : KnownDomain m.protection.currentDomain) (t : Trap)
    (frame : TrapFrame) : KnownDomain (arch.trapStep m t frame).protection.currentDomain := by
  have henter : ∀ d s, KnownDomain s.currentDomain → KnownDomain (arch.mmuEnter d s).currentDomain := fun _ _ =>
    mmuEnter_currentDomain
  cases t with
  | svcReturn =>
    simp only [Arch.trapStep]
    cases hstack : m.stack with
    | nil => rw [svcReturn_nil arch hstack]; exact hd
    | cons f rest => rw [svcReturn_cons arch hstack]; exact henter _ _ hd
  | svcCall kind =>
    simp only [Arch.trapStep]
    rcases svcCall_cases arch m kind frame with ⟨-, status, heq⟩ | ⟨-, r, hr, -, heq⟩
    · rw [heq]; exact hd
    · rw [heq]
      unfold Arch.callMmu
      dsimp only
      split
      · exact hs.lookup (svcResolve_ok hr).target
      · exact henter _ _ hd
  | svcYield => exact scheduled_protection (I := fun s => KnownDomain s.currentDomain) henter hd frame _
  | timer =>
    simp only [Arch.trapStep, Arch.irqLowerEl]
    split
    · refine scheduled_protection (I := fun s => KnownDomain s.currentDomain) henter ?_ frame _
      exact hd
    · exact hd
  | dataAbort =>
    simp only [Arch.trapStep, Arch.dataAbort]
    split <;> exact hd
  | sysregTrap =>
    simp only [Arch.trapStep, Arch.sysregTrap]
    split <;> exact hd
  | fatal => exact hd

/-- What isolation needs of the machine. -/
structure Machine.Confined (arch : Arch) (m : Machine) : Prop where
  consistent : m.protection.Consistent arch
  domain : KnownDomain m.protection.currentDomain
  services : KnownServices m.services

theorem machineBoot_confined (arch : Arch) : Machine.Confined arch arch.machineBoot :=
  ⟨mmuInit_consistent, Or.inl rfl, fun _ h => absurd rfl h⟩

theorem Machine.Confined.step (hm : Machine.Confined arch m) {e : MachineEvent}
    (he : ∀ d, e = .kernel (.registryRegister d) → KnownDomain d.domain) : Machine.Confined arch (arch.machineStep m e) := by
  refine ⟨machineStep_consistent hm.consistent e, ?_, ?_⟩
  · unfold Arch.machineStep
    split
    · exact kernelStep_protection (I := fun s => KnownDomain s.currentDomain) (fun _ _ => mmuEnter_currentDomain) hm.domain e
    · split
      · exact trapStep_domain hm.services hm.domain _ _
      · exact hm.domain
    · exact hm.domain
  · unfold Arch.machineStep
    split
    · rw [kernelStep_services]
      split
      · rename_i e
        exact hm.services.step fun d hd => he d (hd ▸ rfl)
      · exact hm.services
    · split
      · rw [(trapStep_tables _ _).services]; exact hm.services
      · exact hm.services
    · exact hm.services

theorem svcSyscall_protection {I : Mmu → Prop} (henter : ∀ d s, I s → I (arch.mmuEnter d s)) (hm : I m.protection)
    (v : Services) (frame : TrapFrame) : I (arch.svcSyscall m v frame).1.protection := by
  unfold Arch.svcSyscall
  split
  · exact hm
  · split
    · exact hm
    · simp only [Arch.svcNanosleep, setResult_protection]
      exact scheduled_protection henter hm frame _

theorem svcSyscall_tables (v : Services) (frame : TrapFrame) : m.SameTables (arch.svcSyscall m v frame).1 := by
  unfold Arch.svcSyscall
  split
  · exact ⟨rfl, rfl⟩
  · split
    · exact ⟨rfl, rfl⟩
    · exact (scheduled_tables frame _).trans (setResult_tables _)

theorem Machine.Confined.syscall (hm : Machine.Confined arch m) (v : Services) (frame : TrapFrame) :
    Machine.Confined arch (arch.svcSyscall m v frame).1 where
  consistent := svcSyscall_protection (fun _ _ => mmuEnter_consistent) hm.consistent v frame
  domain := svcSyscall_protection (I := fun s => KnownDomain s.currentDomain) (fun _ _ => mmuEnter_currentDomain) hm.domain v
    frame
  services := by
    rw [(svcSyscall_tables v frame).services]
    exact hm.services

end

/-! ## Address-space identifiers -/

/-- The three identifiers that ever reach TTBR0. -/
def UsedAsid (a : BitVec 16) : Prop := a = 1 ∨ a = 2 ∨ a = 3

/-- The domain that an identifier stands for. -/
def asidDomain (a : BitVec 16) : DomainId := if a = 1 then domainA else if a = 2 then domainB else domainC

/-- The walks of the domain of an identifier, in the boot tables. -/
def Layout.asidWalk (L : Layout) (before : Translation.Memory) (a : BitVec 16) (va : Reg) : Option Leaf :=
  L.leafAt before (asidDomain a) va

section
variable {L : Layout} {before : Translation.Memory} {d : DomainId}

theorem asidDomain_known (a : BitVec 16) : KnownDomain (asidDomain a) := by
  unfold asidDomain
  split
  · exact Or.inl rfl
  · split
    · exact Or.inr (Or.inl rfl)
    · exact Or.inr (Or.inr rfl)

/-- The root table leaves the identifier alone. -/
theorem archDomain_asid (l1Root : Reg) (asid : BitVec 16) : ((archDomain l1Root asid).ttbr0Val >>> 48).setWidth 16 = asid := by
  have hmask : ∀ i, i < 64 → 48 ≤ i → (0x0000FFFFFFFFF000#64).getLsbD i = false := by decide
  apply BitVec.eq_of_getLsbD_eq
  intro i hi
  rw [archDomain, BitVec.getLsbD_setWidth, BitVec.getLsbD_ushiftRight, BitVec.getLsbD_or, BitVec.getLsbD_and,
    hmask _ (by omega) (by omega), Bool.and_false, Bool.or_false, BitVec.getLsbD_shiftLeft, BitVec.getLsbD_setWidth]
  simp only [hi, decide_true, Bool.true_and, show 48 + i < 64 by omega, show ¬ 48 + i < 48 by omega, decide_false, Bool.not_false,
    show 48 + i - 48 = i by omega, show i < 64 by omega]

theorem activeAsid_known (hd : KnownDomain d) {s : Mmu} (hs : s.Consistent L.toArch) (hcurrent : s.currentDomain = d) :
    UsedAsid (activeAsid s) ∧ asidDomain (activeAsid s) = d ∧ domainAsid d = some (activeAsid s) := by
  rw [activeAsid, show s.ttbr0 = _ from hs, hcurrent]
  rcases hd with rfl | rfl | rfl
  · rw [show L.domainTtbr0Val domainA = (archDomain (L.l1Root Arch.slotA) 1).ttbr0Val from rfl, archDomain_asid]
    exact ⟨Or.inl rfl, rfl, rfl⟩
  · rw [show L.domainTtbr0Val domainB = (archDomain (L.l1Root Arch.slotB) 2).ttbr0Val from rfl, archDomain_asid]
    exact ⟨Or.inr (Or.inl rfl), rfl, rfl⟩
  · rw [show L.domainTtbr0Val domainC = (archDomain (L.l1Root Arch.slotC) 3).ttbr0Val from rfl, archDomain_asid]
    exact ⟨Or.inr (Or.inr rfl), rfl, rfl⟩

/-- The three domains together: what is not tagged with an identifier is common. -/
theorem boot_walkFamily (hL : L.WellPlaced) (before : Translation.Memory) :
    WalkFamily cacheFormat UsedAsid (L.asidWalk before) where
  page := fun _ h hpage => walkCached_samePage h hpage
  shared := fun _ _ h hglobal => leafAt_global hL (asidDomain_known _) (asidDomain_known _) h hglobal

/-- The tables hold what `lettuce_mmu_init` wrote. -/
def Layout.TablesIntact (L : Layout) (before : Translation.Memory) (memory : ByteMemory.Memory 64) : Prop :=
  ∀ t ∈ L.tables, ∀ i, i < 512 → wordAt (wordsOf memory) t i = wordAt (L.initTables before) t i

theorem TablesIntact.walk (hL : L.WellPlaced) {memory : ByteMemory.Memory 64} (h : L.TablesIntact before memory)
    (hd : KnownDomain d) (va : Reg) : walkCached (wordsOf memory) (L.domainTtbr0Val d) va = L.leafAt before d va := by
  have hl1 := tables_getElem? (by have := domainIndex_lt hd; omega) (pages_l1 L hd)
  have hl2 := tables_getElem? (by have := domainIndex_lt hd; omega) (pages_l2 L hd)
  have hl3 := tables_getElem? (by have := domainIndex_lt hd; omega) (pages_l3 L hd)
  have hdevice := tables_getElem? (t := L.kernelL2Device) (i := 0) (L := L) (by decide) rfl
  have hpage2 := hL.page (pages_l2 L hd)
  have hpage3 := hL.page (pages_l3 L hd)
  have hpageDevice := hL.page (i := 0) (L := L) (a := L.kernelL2Device) rfl
  have hroot := domainTtbr0Val_root hL hd
  -- where the entries of level 1 lead
  have hlevel1 : ∀ i, i < 512 → (wordAt (L.initTables before) (L.space d).l1 i).getLsbD 0 = true →
      nextTable (wordAt (L.initTables before) (L.space d).l1 i) = (L.space d).l2 ∨
        nextTable (wordAt (L.initTables before) (L.space d).l1 i) = L.kernelL2Device := by
    intro i hi hvalid
    rw [initTables_l1 hL before hd hi] at hvalid ⊢
    split
    · exact Or.inl (tableDescriptor_next hpage2)
    · split
      · exact Or.inr (tableDescriptor_next hpageDevice)
      · rename_i h1 h0
        rw [if_neg h1, if_neg h0] at hvalid
        exact absurd hvalid (by decide)
  have hcongr : Translation.walk (L.initTables before) (L.domainTtbr0Val d) va =
      Translation.walk (wordsOf memory) (L.domainTtbr0Val d) va := by
    refine walk_congr ?_ ?_ ?_
    · intro i hi
      rw [hroot]
      exact (h _ hl1 i hi).symm
    · intro i hi hvalid _ j hj
      rw [hroot] at hvalid ⊢
      rcases hlevel1 i hi hvalid with hnext | hnext
      · rw [hnext]
        exact (h _ hl2 j hj).symm
      · rw [hnext]
        exact (h _ hdevice j hj).symm
    · rintro i d2 hi hvalid - ⟨j, hj, rfl⟩ hvalid2 htable2 k hk
      rw [hroot] at hvalid hvalid2 htable2 ⊢
      rcases hlevel1 i hi hvalid with hnext | hnext
      · rw [hnext, initTables_l2 hL before hd hj] at hvalid2 htable2 ⊢
        split
        · rw [tableDescriptor_next hpage3]
          exact (h _ hl3 k hk).symm
        · rename_i h8
          rw [if_neg h8] at hvalid2 htable2
          split at htable2
          · exact absurd htable2 (by decide)
          · exact absurd htable2 (by decide)
      · rw [hnext, initTables_device hL before hj] at htable2
        split at htable2
        · exact absurd htable2 (by decide)
        · split at htable2
          · exact absurd htable2 (by decide)
          · exact absurd htable2 (by decide)
  rw [leafAt_eq, walkCached, ← hcongr]
  rfl

/-- Changes outside the tables. -/
theorem TablesIntact.congr (hL : L.WellPlaced) {memory memory' : ByteMemory.Memory 64} (h : L.TablesIntact before memory)
    (hsame : ∀ pa, (∃ t ∈ L.tables, pageOf pa = t.toNat) → memory' pa = memory pa) : L.TablesIntact before memory' := by
  intro t ht i hi
  rw [wordAt_congr (tables_aligned hL ht) hi fun pa hpa => hsame pa ⟨t, ht, hpa⟩]
  exact h t ht i hi

theorem boot_tablesIntact (hL : L.WellPlaced) (before : Translation.Memory) :
    L.TablesIntact before (bytesOf (L.initTables before)) := by
  intro t ht i hi
  have haligned := tables_aligned hL ht
  have hlt := t.isLt
  unfold PageAligned at haligned
  refine wordsOf_bytesOf ?_
  rw [BitVec.toNat_add, BitVec.toNat_ofNat, Nat.mod_eq_of_lt (show 8 * i < 2 ^ 64 by omega),
    Nat.mod_eq_of_lt (show t.toNat + 8 * i < 2 ^ 64 by omega)]
  omega

end

/-! ## The invariant -/

/-- The domain that EL0 runs in, if it runs. -/
def Board.domain (b : Board) : DomainId := b.machine.protection.currentDomain

structure Board.Sound (L : Layout) (before : Translation.Memory) (b : Board) : Prop where
  machine : Machine.Confined L.toArch b.machine
  tables : L.TablesIntact before b.memory
  tlb : Coherent UsedAsid (L.asidWalk before) b.tlb

namespace Board.Sound

variable {L : Layout} {before : Translation.Memory} {b : Board} {va pa : Reg}

theorem walk (hL : L.WellPlaced) (h : b.Sound L before) (va : Reg) : b.walk va = L.leafAt before b.domain va := by
  rw [Board.walk, show b.machine.protection.ttbr0 = _ from h.machine.consistent]
  exact TablesIntact.walk hL h.tables h.machine.domain va

/-- Every address is translated as in the current domain at boot. -/
theorem translate (hL : L.WellPlaced) (h : b.Sound L before) (va : Reg) : b.translate va = L.leafAt before b.domain va := by
  obtain ⟨hused, hasid, -⟩ := activeAsid_known h.machine.domain h.machine.consistent rfl
  have hwalk : L.asidWalk before (activeAsid b.machine.protection) va = L.leafAt before b.domain va := by
    rw [Layout.asidWalk, hasid, Board.domain]
  rw [Board.translate, translate_eq h.tlb (boot_walkFamily hL before) hused (walk hL h va ▸ hwalk.symm), hwalk]

/-- A physical address comes from a page of the domain or from a block. -/
theorem target_cases (hL : L.WellPlaced) (h : b.Sound L before) {access : Leaf → Bool} (ht : b.target access va = some pa) :
    (∃ x leaf, L.mapping (L.space b.domain) (va.extractLsb' 12 9).toNat = some x ∧ InDomainRegion va ∧
      leaf = (pageLeaf (L.space b.domain) x).cached ∧ access leaf = true ∧ pageOf pa = x.1.toNat) ∨
    ((inSupervisorMemory va = true ∨ inDevice va = true) ∧ pa = va ∧
      ∃ leaf, access leaf = true ∧ leaf.el0Read = false) := by
  unfold Board.target at ht
  rw [translate hL h] at ht
  cases hleaf : L.leafAt before b.domain va with
  | none => simp [hleaf] at ht
  | some leaf =>
    simp only [hleaf] at ht
    split at ht
    · rename_i haccess
      cases ht
      rcases leafAt_cases hL h.machine.domain hleaf with ⟨x, hx, hregion, hpage, -, hpa⟩ | ⟨hplace, -, hblock, -, hpa⟩
      · exact Or.inl ⟨x, leaf, hx, hregion, hpage, haccess, hpa⟩
      · refine Or.inr ⟨hplace, hpa, leaf, haccess, ?_⟩
        rw [Leaf.el0Read, blockAt_el0 hblock, Bool.and_false, Bool.false_and]
    · cases ht

theorem target_el0Read (hL : L.WellPlaced) (h : b.Sound L before) (ht : b.target Leaf.el0Read va = some pa) :
    L.Own b.domain pa ∨ L.Common pa := by
  rcases target_cases hL h ht with ⟨x, leaf, hx, -, -, -, hpa⟩ | ⟨-, -, leaf, haccess, hnone⟩
  · exact (mapping_page h.machine.domain hx hpa).1
  · rw [haccess] at hnone
    cases hnone

theorem target_el0Write (hL : L.WellPlaced) (h : b.Sound L before) (ht : b.target Leaf.el0Write va = some pa) :
    L.Own b.domain pa ∨ pageOf pa = L.sharedBufferPage.toNat := by
  rcases target_cases hL h ht with ⟨x, leaf, hx, -, rfl, haccess, hpa⟩ | ⟨-, -, leaf, haccess, hnone⟩
  · rw [cached_el0Write] at haccess
    exact (mapping_page h.machine.domain hx hpa).2 ((pageLeaf_el0 hL h.machine.domain hx).2.1.1 haccess)
  · rw [Leaf.el0Write, hnone, Bool.false_and, Bool.false_and] at haccess
    cases haccess

/-- What EL1 reaches when the address is not in kernel memory. -/
theorem target_el1 (hL : L.WellPlaced) (h : b.Sound L before) {write : Bool} (ht : b.target (Board.el1Access write) va = some pa)
    (hva : inSupervisorMemory va = false) :
    inDevice pa = true ∨ ((L.Own b.domain pa ∨ L.Common pa) ∧
      (write = true → L.Own b.domain pa ∨ pageOf pa = L.sharedBufferPage.toNat)) := by
  rcases target_cases hL h ht with ⟨x, leaf, hx, -, rfl, haccess, hpa⟩ | ⟨hplace, rfl, -⟩
  · obtain ⟨hread, hwrite⟩ := mapping_page h.machine.domain hx hpa
    refine Or.inr ⟨hread, fun hw => hwrite ?_⟩
    rw [hw, Board.el1Access, if_pos rfl, cached_el1Write] at haccess
    exact (pageLeaf_el1Write hL h.machine.domain hx).1 haccess
  · rw [hva] at hplace
    exact Or.inl (hplace.resolve_left (by simp))

/-- The byte before kernel memory faults. -/
theorem target_gap (hL : L.WellPlaced) (h : b.Sound L before) {access : Leaf → Bool} (ht : (b.target access va).isSome) :
    va.toNat ≠ 0x3fffffff := by
  obtain ⟨pa, ht⟩ := Option.isSome_iff_exists.1 ht
  rcases target_cases hL h ht with ⟨x, leaf, -, hregion, -⟩ | ⟨hplace, -⟩
  · intro heq
    have hhigh := hregion.1
    rw [BitVec.extractLsb'_toNat, heq] at hhigh
    revert hhigh
    decide
  · rw [inSupervisorMemory_block, inDevice_block] at hplace
    omega

/-- A buffer that starts outside kernel memory does not reach it without a fault. -/
theorem shielded (hL : L.WellPlaced) (h : b.Sound L before) {access : Leaf → Bool} {p : Reg}
    (hp : inSupervisorMemory p = false) : ∀ n, (∀ i, i < n → (b.target access (p + BitVec.ofNat 64 i)).isSome) →
      inSupervisorMemory (p + BitVec.ofNat 64 n) = false := by
  intro n
  induction n with
  | zero =>
    intro _
    rwa [BitVec.add_zero]
  | succ n ih =>
    intro hbefore
    have hlast := ih fun i hi => hbefore i (by omega)
    have hgap := target_gap hL h (hbefore n (by omega))
    have hnext : p + BitVec.ofNat 64 (n + 1) = p + BitVec.ofNat 64 n + 1#64 := by
      rw [BitVec.add_assoc, BitVec.ofNat_add]
    rw [hnext, Bool.eq_false_iff, ne_eq, inSupervisorMemory_iff]
    rw [Bool.eq_false_iff, ne_eq, inSupervisorMemory_iff] at hlast
    simp only [kernelMemStart, kernelMemEnd, BitVec.toNat_add, BitVec.toNat_ofNat] at hlast hgap ⊢
    omega

end Board.Sound

/-! ## The accesses of a system call -/

/-- The list of accesses, case by case. -/
theorem userAccesses_cases (v : Services) (frame : TrapFrame) :
    userAccesses v frame = [] ∨
    (syscallOf frame.sysNo = some .write ∧ inSupervisorMemory frame.arg1 = false ∧
      userAccesses v frame = [⟨frame.arg1, frame.arg2.toNat, false⟩]) ∨
    (syscallOf frame.sysNo = some .clockGettime ∧ inSupervisorMemory frame.arg1 = false ∧
      userAccesses v frame = [⟨frame.arg1, 8, true⟩, ⟨frame.arg1 + nsecOffset, 8, true⟩]) ∨
    (syscallOf frame.sysNo = some .nanosleep ∧
      (userAccesses v frame = [⟨frame.arg0 + nsecOffset, 8, false⟩] ∨
        inSupervisorMemory frame.arg0 = false ∧
          userAccesses v frame = [⟨frame.arg0 + nsecOffset, 8, false⟩, ⟨frame.arg0, 8, false⟩])) := by
  unfold userAccesses
  cases syscallOf frame.sysNo with
  | none => exact Or.inl rfl
  | some call =>
    cases call with
    | write =>
      dsimp only
      split
      · exact Or.inl rfl
      · rename_i hpass
        simp only [not_or, Bool.not_eq_true] at hpass
        split
        · exact Or.inl rfl
        · exact Or.inr (Or.inl ⟨rfl, hpass.2.2, rfl⟩)
    | clockGettime =>
      dsimp only
      split
      · exact Or.inl rfl
      · rename_i hpass
        simp only [not_or, Bool.not_eq_true] at hpass
        exact Or.inr (Or.inr (Or.inl ⟨rfl, hpass.2.2.1, rfl⟩))
    | nanosleep =>
      dsimp only
      split
      · exact Or.inl rfl
      · refine Or.inr (Or.inr (Or.inr ⟨rfl, ?_⟩))
        split
        · exact Or.inl rfl
        · rename_i hpass
          simp only [not_or, Bool.not_eq_true] at hpass
          exact Or.inr ⟨hpass.2.2, rfl⟩
    | _ => exact Or.inl rfl

/-- Byte `i` of access `a` is made: nothing before it faulted, and it does not. -/
def Board.Touches (b : Board) (accesses : List UserAccess) (a : UserAccess) (i : Nat) : Prop :=
  ∃ first rest, accesses = first ++ a :: rest ∧ (∀ a' ∈ first, b.completes a' = true) ∧ i < a.length ∧
    ∀ j, j ≤ i → b.reaches a j = true

section
variable {b : Board} {accesses : List UserAccess} {a : UserAccess} {i : Nat}

theorem completes_iff : b.completes a = true ↔ ∀ j, j < a.length → b.reaches a j = true := by
  simp only [Board.completes, List.all_eq_true, List.mem_range]

theorem touches_singleton {a' : UserAccess} (h : b.Touches [a'] a i) :
    a = a' ∧ i < a'.length ∧ ∀ j, j ≤ i → b.reaches a' j = true := by
  obtain ⟨first, rest, heq, -, hi, hreach⟩ := h
  cases first with
  | nil =>
    cases heq
    exact ⟨rfl, hi, hreach⟩
  | cons x xs =>
    have hlength := congrArg List.length heq
    simp at hlength

theorem touches_pair {a₁ a₂ : UserAccess} (h : b.Touches [a₁, a₂] a i) :
    (a = a₁ ∧ i < a₁.length ∧ ∀ j, j ≤ i → b.reaches a₁ j = true) ∨
      (a = a₂ ∧ b.completes a₁ = true ∧ i < a₂.length ∧ ∀ j, j ≤ i → b.reaches a₂ j = true) := by
  obtain ⟨first, rest, heq, hbefore, hi, hreach⟩ := h
  cases first with
  | nil =>
    cases heq
    exact Or.inl ⟨rfl, hi, hreach⟩
  | cons x xs =>
    rw [List.cons_append, List.cons.injEq] at heq
    obtain ⟨rfl, heq⟩ := heq
    obtain ⟨rfl, hi, hreach⟩ := touches_singleton ⟨xs, rest, heq, fun a' ha' => hbefore a' (List.mem_cons_of_mem _ ha'), hi, hreach⟩
    exact Or.inr ⟨rfl, hbefore _ (List.mem_cons_self ..), hi, hreach⟩

end

section
variable {L : Layout} {before : Translation.Memory} {b : Board}

/-- The address of a byte that a system call touches is outside kernel memory, but for the word `nanosleep` reads before
it tests its pointer. -/
theorem Board.Touches.address (hL : L.WellPlaced) (h : b.Sound L before) {v : Services} {frame : TrapFrame} {a : UserAccess}
    {i : Nat} (ht : b.Touches (userAccesses v frame) a i) :
    inSupervisorMemory (a.address + BitVec.ofNat 64 i) = false ∨
      (syscallOf frame.sysNo = some .nanosleep ∧ a = ⟨frame.arg0 + nsecOffset, 8, false⟩) := by
  have hshield : ∀ {a : UserAccess} {i : Nat}, inSupervisorMemory a.address = false → (∀ j, j ≤ i → b.reaches a j = true) →
      inSupervisorMemory (a.address + BitVec.ofNat 64 i) = false := fun {_ i} hstart hreach =>
    Board.Sound.shielded hL h hstart i fun j hj => hreach j (by omega)
  rcases userAccesses_cases v frame with heq | ⟨-, hsup, heq⟩ | ⟨-, hsup, heq⟩ | ⟨hcall, heq | ⟨hsup, heq⟩⟩
  · rw [heq] at ht
    obtain ⟨first, rest, hnil, -⟩ := ht
    cases first <;> cases hnil
  · rw [heq] at ht
    obtain ⟨rfl, -, hreach⟩ := touches_singleton ht
    exact Or.inl (hshield hsup hreach)
  · rw [heq] at ht
    rcases touches_pair ht with ⟨rfl, -, hreach⟩ | ⟨rfl, hfirst, -, hreach⟩
    · exact Or.inl (hshield hsup hreach)
    · left
      -- the second word follows the first without a gap
      have hstart := hshield (a := ⟨frame.arg1, 8, true⟩) (i := 7) hsup fun j hj => completes_iff.1 hfirst j (Nat.lt_succ_of_le hj)
      have hsecond := hreach 0 (Nat.zero_le _)
      have hboth : inSupervisorMemory (frame.arg1 + BitVec.ofNat 64 8) = false :=
        Board.Sound.shielded hL h hsup 8 fun j hj => completes_iff.1 hfirst j hj
      exact hshield hboth hreach
  · rw [heq] at ht
    obtain ⟨rfl, -, -⟩ := touches_singleton ht
    exact Or.inr ⟨hcall, rfl⟩
  · rw [heq] at ht
    rcases touches_pair ht with ⟨rfl, -, -⟩ | ⟨rfl, -, -, hreach⟩
    · exact Or.inr ⟨hcall, rfl⟩
    · exact Or.inl (hshield hsup hreach)

/-- A byte that a system call stores lands in a writable page of the caller's domain, or in a device. -/
theorem Board.Touches.write (hL : L.WellPlaced) (h : b.Sound L before) {v : Services} {frame : TrapFrame} {a : UserAccess}
    {i : Nat} (ht : b.Touches (userAccesses v frame) a i) (hwrite : a.write = true) {pa : Reg}
    (hpa : b.target (Board.el1Access a.write) (a.address + BitVec.ofNat 64 i) = some pa) :
    inDevice pa = true ∨ L.Own b.domain pa ∨ pageOf pa = L.sharedBufferPage.toNat := by
  rcases Board.Touches.address hL h ht with hva | ⟨-, rfl⟩
  · rcases Board.Sound.target_el1 hL h hpa hva with hdevice | ⟨-, hpage⟩
    · exact Or.inl hdevice
    · exact Or.inr (hpage hwrite)
  · cases hwrite

end

/-! ## What changes memory -/

theorem foldl_ne {α β γ : Type} {f : (β → γ) → α → β → γ} {l : List α} {m : β → γ} {p : β} (h : l.foldl f m p ≠ m p) :
    ∃ first x rest m', l = first ++ x :: rest ∧ f m' x p ≠ m' p := by
  induction l generalizing m with
  | nil => exact absurd rfl h
  | cons x l ih =>
    by_cases hx : f m x p = m p
    · rw [List.foldl_cons, ← hx] at h
      obtain ⟨first, y, rest, m', hl, hne⟩ := ih h
      exact ⟨x :: first, y, rest, m', by rw [hl, List.cons_append], hne⟩
    · exact ⟨[], x, l, m, rfl, hx⟩

section
variable {b : Board} {value m : ByteMemory.Memory 64} {a : UserAccess} {pa : Reg}

theorem putByte_ne {va : Reg} {x : BitVec 8} (h : b.putByte m va x pa ≠ m pa) :
    b.target Leaf.el1Write va = some pa ∧ inDevice pa = false := by
  unfold Board.putByte at h
  cases htarget : b.target Leaf.el1Write va with
  | none =>
    rw [htarget] at h
    exact absurd rfl h
  | some pa' =>
    simp only [htarget] at h
    split at h
    · exact absurd rfl h
    · rename_i hdevice
      by_cases hpa : pa = pa'
      · subst hpa
        exact ⟨rfl, Bool.eq_false_iff.2 hdevice⟩
      · exact absurd (Function.update_of_ne hpa _ _) h

theorem writeBack_ne (h : b.writeBack value m a pa ≠ m pa) :
    a.write = true ∧ inDevice pa = false ∧
      ∃ i, i < a.length ∧ b.target (Board.el1Access a.write) (a.address + BitVec.ofNat 64 i) = some pa := by
  unfold Board.writeBack at h
  split at h
  · rename_i hwrite
    obtain ⟨first, i, rest, m', hrange, hne⟩ := foldl_ne h
    obtain ⟨htarget, hdevice⟩ := putByte_ne hne
    have hi : i ∈ List.range a.length := by
      rw [hrange]
      exact List.mem_append_right _ (List.mem_cons_self ..)
    refine ⟨hwrite, hdevice, i, List.mem_range.1 hi, ?_⟩
    rw [hwrite]
    exact htarget
  · exact absurd rfl h

theorem takeWhile_split {α : Type} {p : α → Bool} {l first rest : List α} {x : α} (h : l.takeWhile p = first ++ x :: rest) :
    (∃ rest', l = first ++ x :: rest') ∧ p x = true ∧ ∀ y ∈ first, p y = true := by
  have hall : ∀ y ∈ first ++ x :: rest, p y = true := by
    rw [← h]
    exact List.all_eq_true.1 List.all_takeWhile
  refine ⟨⟨rest ++ l.dropWhile p, ?_⟩, hall x (by simp), fun y hy => hall y (List.mem_append_left _ hy)⟩
  rw [← List.cons_append, ← List.append_assoc, ← h, List.takeWhile_append_dropWhile]

/-- A system call changes what it touches by a store. -/
theorem syscall_memory_ne {arch : Arch} {frame : TrapFrame} {counter : BitVec 64} {device : ByteMemory.Memory 64}
    (h : (b.syscall arch frame counter device).memory pa ≠ b.memory pa) :
    ∃ a i, b.Touches (userAccesses (b.services counter device) frame) a i ∧ a.write = true ∧ inDevice pa = false ∧
      b.target (Board.el1Access a.write) (a.address + BitVec.ofNat 64 i) = some pa := by
  unfold Board.syscall at h
  have hmemory : (((userAccesses (b.services counter device) frame).takeWhile b.completes).foldl
      (b.writeBack (arch.svcSyscall b.machine (b.services counter device) frame).2.memory) b.memory) pa ≠ b.memory pa := by
    dsimp only at h
    split at h
    · exact h
    · exact h
  obtain ⟨first, a, rest, m', hlist, hne⟩ := foldl_ne hmemory
  obtain ⟨hwrite, hdevice, i, hi, htarget⟩ := writeBack_ne hne
  obtain ⟨⟨rest', hall⟩, hcompletes, hbefore⟩ := takeWhile_split hlist
  exact ⟨a, i, ⟨first, rest', hall, hbefore, hi, fun j hj => completes_iff.1 hcompletes j (by omega)⟩, hwrite, hdevice, htarget⟩

end

/-- The event stores into the byte at `pa`: a store of EL0, or one that a system call makes through its pointer. -/
def BoardEvent.StoresTo (b : Board) (pa : Reg) : BoardEvent → Prop
  | .store va _ => b.target Leaf.el0Write va = some pa
  | .syscall frame counter device =>
    ∃ a i, b.Touches (userAccesses (b.services counter device) frame) a i ∧ a.write = true ∧
      b.target (Board.el1Access a.write) (a.address + BitVec.ofNat 64 i) = some pa
  | _ => False

namespace Board.Sound

variable {L : Layout} {before : Translation.Memory} {b : Board}

/-- A byte changes by a store of EL0, or of the kernel for it, in a page that the current domain may write. -/
theorem changes (hL : L.WellPlaced) (h : b.Sound L before) {e : BoardEvent} {pa : Reg}
    (hne : (boardStep L.toArch b e).memory pa ≠ b.memory pa) :
    b.machine.inEl0 = true ∧ e.StoresTo b pa ∧ (L.Own b.domain pa ∨ pageOf pa = L.sharedBufferPage.toNat) := by
  cases e with
  | store va value =>
    simp only [boardStep] at hne
    split at hne
    · rename_i hel0
      split at hne
      · exact absurd rfl hne
      · rename_i pa' htarget
        by_cases hpa : pa = pa'
        · subst hpa
          exact ⟨hel0, htarget, target_el0Write hL h htarget⟩
        · exact absurd (Function.update_of_ne hpa _ _) hne
    · exact absurd rfl hne
  | syscall frame counter device =>
    simp only [boardStep] at hne
    split at hne
    · rename_i hel0
      obtain ⟨a, i, htouch, hwrite, hdevice, htarget⟩ := syscall_memory_ne hne
      rcases Board.Touches.write hL h htouch hwrite htarget with hdev | hpage
      · rw [hdevice] at hdev
        cases hdev
      · exact ⟨hel0, ⟨a, i, htouch, hwrite, htarget⟩, hpage⟩
    · exact absurd rfl hne
  | invalidateDomain domain =>
    simp only [boardStep] at hne
    split at hne <;> exact absurd rfl hne
  | _ => exact absurd rfl hne

/-- The TLB stays coherent: what is filled is a walk of the current domain. -/
theorem step_tlb (hL : L.WellPlaced) (h : b.Sound L before) (e : BoardEvent) :
    Coherent UsedAsid (L.asidWalk before) (boardStep L.toArch b e).tlb := by
  obtain ⟨hused, hasid, -⟩ := activeAsid_known h.machine.domain h.machine.consistent rfl
  cases e with
  | tlbFill va =>
    refine h.tlb.fill hused ?_
    rw [walk hL h, Layout.asidWalk, hasid, Board.domain]
  | tlbEvict n => exact h.tlb.sublist (List.eraseIdx_sublist ..)
  | invalidateAsid asid => exact h.tlb.invalidateAsid asid
  | invalidateDomain domain =>
    simp only [boardStep]
    split
    · exact h.tlb
    · exact h.tlb.invalidateAsid _
  | invalidateAll => exact coherent_nil
  | store va value =>
    simp only [boardStep]
    repeat' split
    all_goals exact h.tlb
  | syscall frame counter device =>
    simp only [boardStep, Board.syscall]
    repeat' split
    all_goals exact h.tlb
  | _ => exact h.tlb

theorem step_machine (h : b.Sound L before) {e : BoardEvent} (hok : BoardOk b e) :
    Machine.Confined L.toArch (boardStep L.toArch b e).machine := by
  cases e with
  | machine e =>
    refine h.machine.step ?_
    rintro d rfl
    exact hok
  | store va value =>
    simp only [boardStep]
    repeat' split
    all_goals exact h.machine
  | syscall frame counter device =>
    simp only [boardStep, Board.syscall]
    split
    · split
      · exact h.machine.syscall _ frame
      · exact ⟨h.machine.consistent, h.machine.domain, h.machine.services⟩
    · exact h.machine
  | invalidateDomain domain =>
    simp only [boardStep]
    split <;> exact h.machine
  | _ => exact h.machine

theorem step (hL : L.WellPlaced) (h : b.Sound L before) {e : BoardEvent} (hok : BoardOk b e) :
    (boardStep L.toArch b e).Sound L before where
  machine := step_machine h hok
  tables := by
    refine TablesIntact.congr hL h.tables fun pa ⟨t, ht, hpa⟩ => ?_
    by_contra hne
    obtain ⟨-, -, hpage⟩ := changes hL h hne
    exact writable_ne_table hL h.machine.domain hpage ht hpa
  tlb := step_tlb hL h e

theorem boot (hL : L.WellPlaced) (before : Translation.Memory) (frequency : BitVec 64) :
    (Board.boot L before frequency).Sound L before where
  machine := machineBoot_confined L.toArch
  tables := boot_tablesIntact hL before
  tlb := coherent_nil

theorem run (hL : L.WellPlaced) {frequency : BitVec 64} {h : List (Board × BoardEvent)} {b : Board}
    (r : Run BoardOk (boardStep L.toArch) (Board.boot L before frequency) h b) : b.Sound L before :=
  r.invariant (I := fun b => b.Sound L before) (boot hL before frequency) fun _ _ hok hs => step hL hs hok

end Board.Sound

end Lettuce
