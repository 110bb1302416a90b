import LettuceKernel.AddressSpaces
import LettuceKernel.Lib.VirtualMemory
import LettuceKernel.Posix
/-!
# What the kernel reaches through the tables

EL1 runs on the tables of the current domain. Outside the 2 MB of the domain pages they hold three blocks, the same ones
in every domain: kernel memory, the interrupt controller and the UART, each mapped to its own address and global. Any
other address faults, in particular the one before kernel memory, so a buffer that starts outside
kernel memory and does not fault never reaches it.
-/

namespace Lettuce

open Translation
open ByteMemory (Covers)

/-- The two device blocks of `kernel_l2_device`. -/
def inDevice (a : Reg) : Bool :=
  (decide (gicPa.toNat ≤ a.toNat) && decide (a.toNat < gicPa.toNat + 0x200000)) ||
    (decide (uartPa.toNat ≤ a.toNat) && decide (a.toNat < uartPa.toNat + 0x200000))

/-- Behind entry 1 of level 1 and entry 8 of level 2. -/
def InDomainRegion (va : Reg) : Prop := (va.extractLsb' 30 9).toNat = 1 ∧ (va.extractLsb' 21 9).toNat = 8

/-- The block descriptor that translates `va`. -/
def blockAt (va : Reg) : Option Reg :=
  if (va.extractLsb' 30 9).toNat = 1 ∧ (va.extractLsb' 21 9).toNat = 0 then some (kernelRamBlockDescriptor kernelRamPa)
  else if (va.extractLsb' 30 9).toNat = 0 ∧ (va.extractLsb' 21 9).toNat = 64 then some (deviceBlockDescriptor gicPa)
  else if (va.extractLsb' 30 9).toNat = 0 ∧ (va.extractLsb' 21 9).toNat = 72 then some (deviceBlockDescriptor uartPa)
  else none

section
variable {L : Layout} {d : DomainId} {m : Memory} {va : Reg}

/-- The place of a table is no attribute. -/
theorem tableDescriptor_cached {a : Reg} (ha : PageAligned a ∧ a.toNat < 0x1000000000000) :
    tableDescriptor a &&& 0xF800000000000000#64 = 0 := by
  have hmask : ∀ i, i < 64 → i < 59 → (0xF800000000000000#64).getLsbD i = false := by decide
  have hthree : ∀ i, i < 64 → 59 ≤ i → (3 : Reg).getLsbD i = false := by decide
  apply BitVec.eq_of_getLsbD_eq
  intro i hi
  rw [BitVec.getLsbD_and]
  by_cases hin : i < 59
  · rw [hmask i hi hin, Bool.and_false]
    simp
  · rw [tableDescriptor_eq ha, getLsbD_or_aligned ha.1 ha.2 (Or.inr (by omega)), hthree i hi (by omega), Bool.false_and]
    simp

/-- The blocks, in whatever domain. -/
theorem translate_block (hL : L.WellPlaced) (m : Memory) (hd : KnownDomain d) (hne : ¬ InDomainRegion va) :
    (L.translate m d va).map Leaf.cached = (blockAt va).map fun b => ⟨b, 0, 21⟩ := by
  have hl2 := hL.page (pages_l2 L hd)
  have hdev := hL.page (i := 0) (L := L) (a := L.kernelL2Device) rfl
  have hroot := initTables_l1 hL m hd (index_lt va 30)
  rw [← domainTtbr0Val_root hL hd] at hroot
  unfold blockAt
  by_cases h1 : (va.extractLsb' 30 9).toNat = 1
  · have h0 : (va.extractLsb' 30 9).toNat ≠ 0 := by omega
    rw [if_pos h1] at hroot
    have hnext := initTables_l2 hL m hd (index_lt va 21)
    rw [← tableDescriptor_next hl2, if_neg fun h2 => hne ⟨h1, h2⟩] at hnext
    have hvalid := tableDescriptor_bit hl2 (i := 0) (Or.inl (by decide))
    have htable := tableDescriptor_bit hl2 (i := 1) (Or.inl (by decide))
    split at hnext
    · rename_i h2
      rw [Layout.translate, walk_block2 hroot hvalid htable hnext (by decide) (by decide), if_pos ⟨h1, h2⟩, Option.map_some,
        Leaf.cached, tableDescriptor_cached hl2]
      rfl
    · rename_i h2
      rw [Layout.translate, walk_fault2 hroot hvalid htable hnext (by decide), if_neg fun h => h2 h.2,
        if_neg fun h => h0 h.1, if_neg fun h => h0 h.1]
      rfl
  · rw [if_neg fun h => h1 h.1]
    rw [if_neg h1] at hroot
    split at hroot
    · rename_i h0
      have hnext := initTables_device hL m (index_lt va 21)
      rw [← tableDescriptor_next hdev] at hnext
      have hvalid := tableDescriptor_bit hdev (i := 0) (Or.inl (by decide))
      have htable := tableDescriptor_bit hdev (i := 1) (Or.inl (by decide))
      split at hnext
      · rename_i huart
        rw [Layout.translate, walk_block2 hroot hvalid htable hnext (by decide) (by decide), if_neg fun h => by omega,
          if_pos ⟨h0, huart⟩, Option.map_some, Leaf.cached, tableDescriptor_cached hdev]
        rfl
      · rename_i huart
        split at hnext
        · rename_i hgic
          rw [Layout.translate, walk_block2 hroot hvalid htable hnext (by decide) (by decide), if_pos ⟨h0, hgic⟩,
            Option.map_some, Leaf.cached, tableDescriptor_cached hdev]
          rfl
        · rename_i hgic
          rw [Layout.translate, walk_fault2 hroot hvalid htable hnext (by decide), if_neg fun h => hgic h.2,
            if_neg fun h => huart h.2]
          rfl
    · rename_i h0
      rw [Layout.translate, walk_fault1 hroot (by decide), if_neg fun h => h0 h.1, if_neg fun h => h0 h.1]
      rfl

/-- The number of the 2 MB that `va` lies in, from its two indices. -/
theorem block_number (hva : va.toNat < 0x8000000000) :
    va.toNat / 0x200000 = (va.extractLsb' 30 9).toNat * 512 + (va.extractLsb' 21 9).toNat := by
  have hhigh : va.toNat / 0x40000000 < 512 := by omega
  simp only [BitVec.extractLsb'_toNat, Nat.shiftRight_eq_div_pow, Nat.reducePow, Nat.mod_eq_of_lt hhigh]
  omega

theorem inSupervisorMemory_block : inSupervisorMemory va = true ↔ va.toNat / 0x200000 = 512 := by
  simp only [inSupervisorMemory_iff, kernelMemStart, kernelMemEnd]
  omega

theorem inDevice_block : inDevice va = true ↔ va.toNat / 0x200000 = 64 ∨ va.toNat / 0x200000 = 72 := by
  simp only [inDevice, show gicPa.toNat = 0x08000000 from rfl, show uartPa.toNat = 0x09000000 from rfl, Bool.and_eq_true,
    Bool.or_eq_true, decide_eq_true_eq]
  omega

/-- A block lies in one of three places, mapped to its own address. -/
theorem blockAt_place {b : Reg} (hva : va.toNat < 0x8000000000) (h : blockAt va = some b) :
    (inSupervisorMemory va = true ∨ inDevice va = true) ∧
      b.toNat % 0x1000000000000 / 0x200000 = va.toNat / 0x200000 ∧ b.getLsbD 11 = false := by
  rw [inSupervisorMemory_block, inDevice_block, block_number hva]
  unfold blockAt at h
  split at h
  · rename_i hindex
    cases h
    rw [hindex.1, hindex.2]
    exact ⟨Or.inl rfl, by decide, by decide⟩
  · split at h
    · rename_i hindex
      cases h
      rw [hindex.1, hindex.2]
      exact ⟨Or.inr (Or.inl rfl), by decide, by decide⟩
    · split at h
      · rename_i hindex
        cases h
        rw [hindex.1, hindex.2]
        exact ⟨Or.inr (Or.inr rfl), by decide, by decide⟩
      · cases h

theorem blockAt_el0 {b : Reg} (h : blockAt va = some b) : b.getLsbD 6 = false := by
  unfold blockAt at h
  repeat' split at h
  all_goals cases h
  all_goals decide

theorem block_physicalAddress {b : Reg} (hb : b.toNat % 0x1000000000000 / 0x200000 = va.toNat / 0x200000) :
    (Leaf.mk b 0 21).physicalAddress va = va := by
  apply BitVec.eq_of_toNat_eq
  have hva := va.isLt
  simp only [Leaf.physicalAddress, BitVec.toNat_ofNat, Nat.shiftRight_eq_div_pow, Nat.shiftLeft_eq, Nat.one_mul, Nat.reducePow]
  rw [hb]
  omega

/-! ## The boot tables, as the hardware uses them -/

/-- What a walk of the tables of domain `d` ends in. -/
def Layout.leafAt (L : Layout) (m : Memory) (d : DomainId) (va : Reg) : Option Leaf :=
  walkCached (L.initTables m) (L.domainTtbr0Val d) va

theorem leafAt_eq (L : Layout) (m : Memory) (d : DomainId) (va : Reg) :
    L.leafAt m d va = if va.toNat < 0x8000000000 then (L.translate m d va).map Leaf.cached else none := rfl

/-- A leaf is a page of the domain, or a block. -/
theorem leafAt_cases (hL : L.WellPlaced) (hd : KnownDomain d) {leaf : Leaf} (h : L.leafAt m d va = some leaf) :
    (∃ x, L.mapping (L.space d) (va.extractLsb' 12 9).toNat = some x ∧ InDomainRegion va ∧
      leaf = (pageLeaf (L.space d) x).cached ∧ leaf.isGlobal = false ∧ pageOf (leaf.physicalAddress va) = x.1.toNat) ∨
    ((inSupervisorMemory va = true ∨ inDevice va = true) ∧ ¬ InDomainRegion va ∧ blockAt va = some leaf.descriptor ∧
      leaf.isGlobal = true ∧ leaf.physicalAddress va = va) := by
  rw [leafAt_eq] at h
  split at h
  · rename_i hva
    by_cases hregion : InDomainRegion va
    · left
      rw [translate_page hL m hd hregion.1 hregion.2, Option.map_map] at h
      obtain ⟨x, hx, rfl⟩ := Option.map_eq_some_iff.1 h
      refine ⟨x, hx, hregion, rfl, ?_, ?_⟩
      · rw [Function.comp, cached_isGlobal, Leaf.isGlobal, (pageLeaf_el0 hL hd hx).2.2.2, Bool.not_true]
      · rw [Function.comp, cached_physicalAddress, physicalAddress_page (show 12 ≤ 39 by decide), pageLeaf_physicalPage hL hd hx]
    · right
      rw [translate_block hL m hd hregion] at h
      obtain ⟨b, hb, rfl⟩ := Option.map_eq_some_iff.1 h
      obtain ⟨hplace, hnumber, hglobal⟩ := blockAt_place hva hb
      refine ⟨hplace, hregion, hb, ?_, block_physicalAddress hnumber⟩
      simp only [Leaf.isGlobal, Leaf.nonGlobal, hglobal, Bool.not_false]
  · cases h

/-- Blocks are the same in all domains. -/
theorem leafAt_global (hL : L.WellPlaced) (hd : KnownDomain d) {d' : DomainId} (hd' : KnownDomain d') {leaf : Leaf}
    (h : L.leafAt m d va = some leaf) (hglobal : leaf.isGlobal = true) : L.leafAt m d' va = some leaf := by
  rcases leafAt_cases hL hd h with ⟨x, -, -, -, hfalse, -⟩ | ⟨-, hregion, -⟩
  · rw [hfalse] at hglobal
    cases hglobal
  · rw [leafAt_eq] at h ⊢
    rw [← h, translate_block hL m hd hregion, translate_block hL m hd' hregion]

/-! ## Which physical pages -/

/-- EL1 writes what EL0 writes, among the pages. -/
theorem pageLeaf_el1Write (hL : L.WellPlaced) (hd : KnownDomain d) {i : Nat} {x : Reg × Reg}
    (hx : L.mapping (L.space d) i = some x) : (pageLeaf (L.space d) x).el1Write = true ↔ x.2 = dataAttributes := by
  obtain ⟨hpage, hattributes⟩ := mapping_placed hL hd hx
  have hl2 := hL.page (pages_l2 L hd)
  have hl3 := hL.page (pages_l3 L hd)
  have htables : (tableDescriptor (L.space d).l2 ||| tableDescriptor (L.space d).l3).getLsbD 62 = false := by
    rw [BitVec.getLsbD_or, tableDescriptor_bit hl2 (Or.inr (by decide)), tableDescriptor_bit hl3 (Or.inr (by decide))]
    decide
  have hbit : ∀ i, i < 12 ∨ 48 ≤ i → (pageDescriptor x.1 x.2).getLsbD i = (0x703 ||| x.2 : Reg).getLsbD i :=
    fun i hi => pageDescriptor_bit hpage x.2 hi
  simp only [pageLeaf, Leaf.el1Write, hbit 10 (Or.inl (by decide)), hbit 7 (Or.inl (by decide)), htables]
  rcases hattributes with h | h | h <;> rw [h] <;> decide

/-- In the private or the stack page of domain `d`. -/
def Layout.Own (L : Layout) (d : DomainId) (pa : Reg) : Prop :=
  pageOf pa = (L.space d).privatePa.toNat ∨ pageOf pa = (L.space d).stackPa.toNat

instance (L : Layout) (d : DomainId) (pa : Reg) : Decidable (L.Own d pa) := inferInstanceAs (Decidable (_ ∨ _))

/-- In a page that every domain maps: the shared buffer, the service code, and the test page of domain A. -/
def Layout.Common (L : Layout) (pa : Reg) : Prop :=
  pageOf pa = L.sharedBufferPage.toNat ∨ pageOf pa = L.el0ServiceCodeStart.toNat ∨ pageOf pa = L.roTestPage.toNat

/-- The pages that a domain maps are its own or common ones. -/
theorem mapping_page (hd : KnownDomain d) {i : Nat} {x : Reg × Reg} (hx : L.mapping (L.space d) i = some x) {pa : Reg}
    (hpa : pageOf pa = x.1.toNat) :
    (L.Own d pa ∨ L.Common pa) ∧ (x.2 = dataAttributes → L.Own d pa ∨ pageOf pa = L.sharedBufferPage.toNat) := by
  have hrd : readOnlyAttributes ≠ dataAttributes := by decide
  have hcd : codeAttributes ≠ dataAttributes := by decide
  obtain ⟨n, -, -, -, hcases⟩ := mapping_cases L hd i
  rw [hx] at hcases
  rcases hcases with ⟨h, -⟩ | ⟨h, -⟩ | ⟨h, -⟩ | ⟨h, -⟩ | ⟨h, -⟩ | ⟨h, -⟩
  · cases h
    exact ⟨Or.inr (Or.inr (Or.inr hpa)), fun h => absurd h hrd⟩
  · cases h
    exact ⟨Or.inr (Or.inl hpa), fun _ => Or.inr hpa⟩
  · cases h
    exact ⟨Or.inr (Or.inr (Or.inl hpa)), fun h => absurd h hcd⟩
  · cases h
    exact ⟨Or.inl (Or.inr hpa), fun _ => Or.inl (Or.inr hpa)⟩
  · cases h
    exact ⟨Or.inl (Or.inl hpa), fun _ => Or.inl (Or.inl hpa)⟩
  · cases h

/-- The places of a domain's own pages among all pages. -/
theorem own_position (L : Layout) (hd : KnownDomain d) {pa : Reg} (h : L.Own d pa) :
    ∃ k a, (k = (if domainIndex d = 0 then 19 else 10 + 2 * domainIndex d) ∨ k = 11 + 2 * domainIndex d) ∧
      (L.pages ++ [privateAPa])[k]? = some a ∧ pageOf pa = a.toNat := by
  rcases h with h | h
  · exact ⟨_, _, Or.inl rfl, frames_private L hd, h⟩
  · exact ⟨_, _, Or.inr rfl, frames_stack L hd, h⟩

theorem domainIndex_lt (hd : KnownDomain d) : domainIndex d < 3 := by
  rcases hd with rfl | rfl | rfl <;> decide

theorem own_ne (hL : L.WellPlaced) (hd : KnownDomain d) {pa a : Reg} {k : Nat} (h : L.Own d pa)
    (ha : (L.pages ++ [privateAPa])[k]? = some a)
    (hk : k ≠ (if domainIndex d = 0 then 19 else 10 + 2 * domainIndex d) ∧ k ≠ 11 + 2 * domainIndex d) : pageOf pa ≠ a.toNat := by
  obtain ⟨j, b, hj, hb, hpa⟩ := own_position L hd h
  rw [hpa]
  refine frames_ne hL hb ha ?_
  rcases hj with rfl | rfl
  · exact hk.1.symm
  · exact hk.2.symm

/-- No page of a domain is another domain's, or common. -/
theorem own_private (hL : L.WellPlaced) (hd : KnownDomain d) {d' : DomainId} (hd' : KnownDomain d') (hne : d ≠ d') {pa : Reg}
    (h : L.Own d pa) : ¬ L.Own d' pa ∧ ¬ L.Common pa := by
  have hlt := domainIndex_lt hd
  have hlt' := domainIndex_lt hd'
  have hindex : domainIndex d ≠ domainIndex d' := fun h => hne (domainIndex_inj hd hd' h)
  constructor
  · intro h'
    obtain ⟨k, a, hk, ha, hpa⟩ := own_position L hd' h'
    refine own_ne hL hd h ha ?_ hpa
    rcases hk with rfl | rfl
    · constructor
      · split <;> split <;> omega
      · split <;> omega
    · constructor
      · split <;> omega
      · omega
  · rintro (h' | h' | h')
    · refine own_ne hL hd h (k := 16) (a := L.sharedBufferPage) rfl ⟨?_, by omega⟩ h'
      split <;> omega
    · refine own_ne hL hd h (k := 18) (a := L.el0ServiceCodeStart) rfl ⟨?_, by omega⟩ h'
      split <;> omega
    · refine own_ne hL hd h (k := 17) (a := L.roTestPage) rfl ⟨?_, by omega⟩ h'
      split <;> omega

/-- The ten page tables. -/
def Layout.tables (L : Layout) : List Reg := L.pages.take 10

theorem tables_getElem? {i : Nat} {t : Reg} (hi : i < 10) (ht : L.pages[i]? = some t) : t ∈ L.tables :=
  List.mem_of_getElem? (List.getElem?_take_of_lt hi ▸ ht)

theorem tables_aligned (hL : L.WellPlaced) {t : Reg} (ht : t ∈ L.tables) : PageAligned t :=
  hL.aligned t (List.mem_of_mem_take ht)

/-- A page that can be written is no table. -/
theorem writable_ne_table (hL : L.WellPlaced) (hd : KnownDomain d) {pa t : Reg}
    (h : L.Own d pa ∨ pageOf pa = L.sharedBufferPage.toNat) (ht : t ∈ L.tables) : pageOf pa ≠ t.toNat := by
  obtain ⟨k, hk⟩ := List.getElem?_of_mem ht
  have hlt : k < 10 := by
    obtain ⟨hlt, -⟩ := List.getElem?_eq_some_iff.1 hk
    exact Nat.lt_of_lt_of_le hlt (List.length_take_le 10 _)
  have hframe : (L.pages ++ [privateAPa])[k]? = some t := by
    rw [Layout.tables, List.getElem?_take_of_lt hlt] at hk
    rw [List.getElem?_append_left (by obtain ⟨h, -⟩ := List.getElem?_eq_some_iff.1 hk; exact h)]
    exact hk
  rcases h with h | h
  · refine own_ne hL hd h hframe ⟨?_, by omega⟩
    split <;> omega
  · rw [h]
    exact frames_ne hL (i := 16) (a := L.sharedBufferPage) rfl hframe (by omega)

end

end Lettuce
