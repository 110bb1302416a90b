import LettuceKernel.PageTables
/-!
# Isolation of the address spaces

What code at EL0 can reach through the tables that `lettuce_mmu_init` builds, for every address
of the 39-bit space and each of the three domains. All of it lies behind entry 1 of level 1 and
entry 8 of level 2, so an address is decided by its level 3 index and `Layout.mapping`; the
blocks elsewhere (devices and kernel memory) give EL0 nothing.

The arrays are told apart by their position in `Layout.pages`: the tables of domain number `k`
are at `3k+1` to `3k+3`, its stack page at `11+2k`.
-/

namespace Lettuce

open Translation

/-! ## Places -/

/-- The number of a known domain in `arch_domains`. -/
def domainIndex (d : DomainId) : Nat := if d = domainA then 0 else if d = domainB then 1 else 2

theorem domainIndex_inj {d d' : DomainId} (hd : KnownDomain d) (hd' : KnownDomain d')
    (h : domainIndex d = domainIndex d') : d = d' := by
  rcases hd with rfl | rfl | rfl <;> rcases hd' with rfl | rfl | rfl <;> first | rfl | (revert h; decide)

section
variable {L : Layout} {d : DomainId} {i j : Nat} {a b : Reg} {m : Memory}

theorem pages_l1 (L : Layout) (hd : KnownDomain d) : L.pages[3 * domainIndex d + 1]? = some (L.space d).l1 := by
  rcases hd with rfl | rfl | rfl <;> rfl

theorem pages_l2 (L : Layout) (hd : KnownDomain d) : L.pages[3 * domainIndex d + 2]? = some (L.space d).l2 := by
  rcases hd with rfl | rfl | rfl <;> rfl

theorem pages_l3 (L : Layout) (hd : KnownDomain d) : L.pages[3 * domainIndex d + 3]? = some (L.space d).l3 := by
  rcases hd with rfl | rfl | rfl <;> rfl

namespace Layout.WellPlaced

theorem ne (hL : L.WellPlaced) (ha : L.pages[i]? = some a) (hb : L.pages[j]? = some b) (hij : i ≠ j) : a ≠ b := by
  rintro rfl
  obtain ⟨hi, -⟩ := List.getElem?_eq_some_iff.1 ha
  exact hij ((List.getElem?_inj hi hL.distinct).1 (ha.trans hb.symm))

theorem page (hL : L.WellPlaced) (ha : L.pages[i]? = some a) : PageAligned a ∧ a.toNat < 0x1000000000000 := by
  have hmem := List.mem_of_getElem? ha
  have hrange := hL.kernel a hmem
  exact ⟨hL.aligned a hmem, by omega⟩

theorem tables (hL : L.WellPlaced) (hd : KnownDomain d) : (L.space d).Tables where
  l1 := (hL.page (pages_l1 L hd)).1
  l2 := (hL.page (pages_l2 L hd)).1
  l3 := (hL.page (pages_l3 L hd)).1
  l1_ne_l2 := hL.ne (pages_l1 L hd) (pages_l2 L hd) (by omega)
  l1_ne_l3 := hL.ne (pages_l1 L hd) (pages_l3 L hd) (by omega)
  l2_ne_l3 := hL.ne (pages_l2 L hd) (pages_l3 L hd) (by omega)

/-- The tables of a domain are the only arrays its call writes. -/
theorem skip (hL : L.WellPlaced) (hd : KnownDomain d) (hb : L.pages[i]? = some b) (hj : j < 512)
    (hi : i < 3 * domainIndex d + 1 ∨ 3 * domainIndex d + 3 < i) :
    wordAt (L.initDomainTables m (L.space d)) b j = wordAt m b j :=
  initDomainTables_other (hL.tables hd) (hL.page hb).1 hj (hL.ne hb (pages_l1 L hd) (by omega))
    (hL.ne hb (pages_l2 L hd) (by omega)) (hL.ne hb (pages_l3 L hd) (by omega))

/-- The last loop zeroes data pages, not tables. -/
theorem zeroed (hL : L.WellPlaced) (hb : L.pages[i]? = some b) (hi : i < 10) (hj : j < 512) :
    wordAt (zeroArrays m L.dataPages) b j = wordAt m b j := by
  have hdata : L.dataPages = (L.pages.drop 10).take 8 := rfl
  rw [hdata, wordAt_zeroArrays (fun a ha => hL.aligned a (List.mem_of_mem_drop (List.mem_of_mem_take ha)))
    (hL.page hb).1 hj, if_neg]
  intro hmem
  obtain ⟨n, hn⟩ := List.getElem?_of_mem (List.mem_of_mem_take hmem)
  rw [List.getElem?_drop] at hn
  exact hL.ne hb hn (by omega) rfl

end Layout.WellPlaced

/-! ## The tables of a domain when everything is built -/

/-- A table of domain `d` holds what the call for `d` wrote. -/
theorem initTables_domain (hL : L.WellPlaced) (m : Memory) (hd : KnownDomain d) (hj : j < 512)
    (hb : L.pages[i]? = some b) (hlo : 3 * domainIndex d + 1 ≤ i) (hhi : i ≤ 3 * domainIndex d + 3) :
    ∃ m', wordAt (L.initTables m) b j = wordAt (L.initDomainTables m' (L.space d)) b j := by
  have hA : KnownDomain domainA := Or.inl rfl
  have hB : KnownDomain domainB := Or.inr (Or.inl rfl)
  have hC : KnownDomain domainC := Or.inr (Or.inr rfl)
  unfold Layout.initTables
  dsimp only
  rcases hd with rfl | rfl | rfl
  · rw [show domainIndex domainA = 0 from rfl] at hlo hhi
    rw [hL.zeroed hb (by omega) hj, hL.skip hC hb hj (Or.inl (by rw [show domainIndex domainC = 2 from rfl]; omega)),
      hL.skip hB hb hj (Or.inl (by rw [show domainIndex domainB = 1 from rfl]; omega))]
    exact ⟨_, rfl⟩
  · rw [show domainIndex domainB = 1 from rfl] at hlo hhi
    rw [hL.zeroed hb (by omega) hj, hL.skip hC hb hj (Or.inl (by rw [show domainIndex domainC = 2 from rfl]; omega))]
    exact ⟨_, rfl⟩
  · rw [show domainIndex domainC = 2 from rfl] at hlo hhi
    rw [hL.zeroed hb (by omega) hj]
    exact ⟨_, rfl⟩

theorem initTables_l1 (hL : L.WellPlaced) (m : Memory) (hd : KnownDomain d) (hj : j < 512) :
    wordAt (L.initTables m) (L.space d).l1 j =
      if j = 1 then tableDescriptor (L.space d).l2 else if j = 0 then tableDescriptor L.kernelL2Device else 0 := by
  obtain ⟨m', hm⟩ := initTables_domain hL m hd hj (pages_l1 L hd) (by omega) (by omega)
  rw [hm, initDomainTables_l1 (hL.tables hd) hj]

theorem initTables_l2 (hL : L.WellPlaced) (m : Memory) (hd : KnownDomain d) (hj : j < 512) :
    wordAt (L.initTables m) (L.space d).l2 j =
      if j = 8 then tableDescriptor (L.space d).l3 else if j = 0 then kernelRamBlockDescriptor kernelRamPa else 0 := by
  obtain ⟨m', hm⟩ := initTables_domain hL m hd hj (pages_l2 L hd) (by omega) (by omega)
  rw [hm, initDomainTables_l2 (hL.tables hd) hj]

theorem initTables_l3 (hL : L.WellPlaced) (m : Memory) (hd : KnownDomain d) (hj : j < 512) :
    wordAt (L.initTables m) (L.space d).l3 j = mappingDescriptor (L.mapping (L.space d) j) := by
  obtain ⟨m', hm⟩ := initTables_domain hL m hd hj (pages_l3 L hd) (by omega) (by omega)
  rw [hm, initDomainTables_l3 (hL.tables hd) hj]

/-- The device table is shared by the three domains. -/
theorem initTables_device (hL : L.WellPlaced) (m : Memory) (hj : j < 512) :
    wordAt (L.initTables m) L.kernelL2Device j =
      if j = 72 then deviceBlockDescriptor uartPa else if j = 64 then deviceBlockDescriptor gicPa else 0 := by
  have hb : L.pages[0]? = some L.kernelL2Device := rfl
  have hpage := (hL.page hb).1
  have hgic : tableIndex gicPa 21 = 64 := by decide
  have huart : tableIndex uartPa 21 = 72 := by decide
  unfold Layout.initTables
  dsimp only
  rw [hL.zeroed hb (by omega) hj, hL.skip (Or.inr (Or.inr rfl)) hb hj (Or.inl (by omega)),
    hL.skip (Or.inr (Or.inl rfl)) hb hj (Or.inl (by omega)), hL.skip (Or.inl rfl) hb hj (Or.inl (by omega)),
    wordAt_storeWord_same hpage (tableIndex_lt _ _) hj, wordAt_storeWord_same hpage (tableIndex_lt _ _) hj,
    hgic, huart, wordAt_zeroArrays (by simpa using hpage) hpage hj, if_pos (List.mem_singleton_self _)]

/-! ## Descriptors -/

theorem tableDescriptor_eq (ha : PageAligned a ∧ a.toNat < 0x1000000000000) : tableDescriptor a = a ||| 3 := by
  rw [tableDescriptor, and_not_low ha.1 ha.2, BitVec.or_assoc]
  rfl

theorem pageDescriptor_eq (ha : PageAligned a ∧ a.toNat < 0x1000000000000) (attributes : Reg) :
    pageDescriptor a attributes = a ||| (0x703 ||| attributes) := by
  rw [pageDescriptor, and_not_low ha.1 ha.2]
  simp only [BitVec.or_assoc]
  congr 1
  simp only [← BitVec.or_assoc]
  rfl

theorem tableDescriptor_next (ha : PageAligned a ∧ a.toNat < 0x1000000000000) : nextTable (tableDescriptor a) = a := by
  rw [tableDescriptor_eq ha]
  exact nextTable_or ha.1 ha.2 (by decide)

theorem tableDescriptor_bit (ha : PageAligned a ∧ a.toNat < 0x1000000000000) (hi : i < 12 ∨ 48 ≤ i) :
    (tableDescriptor a).getLsbD i = (3 : Reg).getLsbD i := by
  rw [tableDescriptor_eq ha, getLsbD_or_aligned ha.1 ha.2 hi]

theorem pageDescriptor_bit (ha : PageAligned a ∧ a.toNat < 0x1000000000000) (attributes : Reg)
    (hi : i < 12 ∨ 48 ≤ i) : (pageDescriptor a attributes).getLsbD i = (0x703 ||| attributes : Reg).getLsbD i := by
  rw [pageDescriptor_eq ha, getLsbD_or_aligned ha.1 ha.2 hi]

/-- The root that a walk in domain `d` starts from. -/
theorem domainTtbr0Val_root (hL : L.WellPlaced) (hd : KnownDomain d) :
    nextTable (L.domainTtbr0Val d) = (L.space d).l1 := by
  have hpage := hL.page (pages_l1 L hd)
  have hroot : ∀ asid : Reg, nextTable asid = 0 →
      nextTable (asid ||| ((L.space d).l1 &&& 0x0000FFFFFFFFF000#64)) = (L.space d).l1 := by
    intro asid hasid
    rw [show (L.space d).l1 &&& 0x0000FFFFFFFFF000#64 = (L.space d).l1 from nextTable_of_aligned hpage.1 hpage.2,
      BitVec.or_comm]
    exact nextTable_or hpage.1 hpage.2 hasid
  rcases hd with rfl | rfl | rfl
  · exact hroot _ (by decide)
  · exact hroot _ (by decide)
  · exact hroot _ (by decide)

/-! ## Translations -/

/-- The leaf of a mapped page. -/
def pageLeaf (s : DomainSpace) (x : Reg × Reg) : Leaf :=
  ⟨pageDescriptor x.1 x.2, tableDescriptor s.l2 ||| tableDescriptor s.l3, 12⟩

/-- Mapped pages are pages, with one of three attribute words. -/
theorem mapping_placed (hL : L.WellPlaced) (hd : KnownDomain d) {x : Reg × Reg} (hx : L.mapping (L.space d) i = some x) :
    (PageAligned x.1 ∧ x.1.toNat < 0x1000000000000) ∧
      (x.2 = dataAttributes ∨ x.2 = codeAttributes ∨ x.2 = readOnlyAttributes) := by
  have hshared : L.pages[16]? = some L.sharedBufferPage := rfl
  have hro : L.pages[17]? = some L.roTestPage := rfl
  have hcode : L.pages[18]? = some L.el0ServiceCodeStart := rfl
  have hstack : L.pages[11 + 2 * domainIndex d]? = some (L.space d).stackPa := by
    rcases hd with rfl | rfl | rfl <;> rfl
  have hprivate : PageAligned (L.space d).privatePa ∧ (L.space d).privatePa.toNat < 0x1000000000000 := by
    rcases hd with rfl | rfl | rfl
    · change PageAligned privateAPa ∧ privateAPa.toNat < 0x1000000000000
      decide
    · exact hL.page (i := 12) rfl
    · exact hL.page (i := 14) rfl
  unfold Layout.mapping at hx
  split at hx
  · cases hx
    exact ⟨hL.page hro, Or.inr (Or.inr rfl)⟩
  · split at hx
    · cases hx
      exact ⟨hL.page hshared, Or.inl rfl⟩
    · split at hx
      · cases hx
        exact ⟨hL.page hcode, Or.inr (Or.inl rfl)⟩
      · split at hx
        · cases hx
          exact ⟨hL.page hstack, Or.inl rfl⟩
        · split at hx
          · cases hx
            exact ⟨hprivate, Or.inl rfl⟩
          · cases hx

variable {va : Reg}

theorem index_lt (va : Reg) (shift : Nat) : (va.extractLsb' shift 9).toNat < 512 := (va.extractLsb' shift 9).isLt

/-- Behind entry 1 of level 1 and entry 8 of level 2 the mapping decides. -/
theorem translate_page (hL : L.WellPlaced) (m : Memory) (hd : KnownDomain d) (h1 : (va.extractLsb' 30 9).toNat = 1)
    (h2 : (va.extractLsb' 21 9).toNat = 8) :
    L.translate m d va = (L.mapping (L.space d) (va.extractLsb' 12 9).toNat).map (pageLeaf (L.space d)) := by
  have hl2 := hL.page (pages_l2 L hd)
  have hl3 := hL.page (pages_l3 L hd)
  have hd1 : wordAt (L.initTables m) (nextTable (L.domainTtbr0Val d)) (va.extractLsb' 30 9).toNat =
      tableDescriptor (L.space d).l2 := by
    rw [domainTtbr0Val_root hL hd, h1, initTables_l1 hL m hd (by decide), if_pos rfl]
  have hd2 : wordAt (L.initTables m) (nextTable (tableDescriptor (L.space d).l2)) (va.extractLsb' 21 9).toNat =
      tableDescriptor (L.space d).l3 := by
    rw [tableDescriptor_next hl2, h2, initTables_l2 hL m hd (by decide), if_pos rfl]
  have hd3 : wordAt (L.initTables m) (nextTable (tableDescriptor (L.space d).l3)) (va.extractLsb' 12 9).toNat =
      mappingDescriptor (L.mapping (L.space d) (va.extractLsb' 12 9).toNat) := by
    rw [tableDescriptor_next hl3, initTables_l3 hL m hd (index_lt va 12)]
  rw [Layout.translate, walk_level3 hd1 (tableDescriptor_bit hl2 (Or.inl (by decide)))
    (tableDescriptor_bit hl2 (Or.inl (by decide))) hd2 (tableDescriptor_bit hl3 (Or.inl (by decide)))
    (tableDescriptor_bit hl3 (Or.inl (by decide))) hd3]
  cases hx : L.mapping (L.space d) (va.extractLsb' 12 9).toNat with
  | none => rfl
  | some x =>
    obtain ⟨hpage, -⟩ := mapping_placed hL hd hx
    have hvalid : (pageDescriptor x.1 x.2).getLsbD 0 = true := by
      rw [pageDescriptor_bit hpage x.2 (Or.inl (by decide)), BitVec.getLsbD_or]
      rfl
    have hpageBit : (pageDescriptor x.1 x.2).getLsbD 1 = true := by
      rw [pageDescriptor_bit hpage x.2 (Or.inl (by decide)), BitVec.getLsbD_or]
      rfl
    simp only [mappingDescriptor, hvalid, hpageBit, Bool.true_eq_false, or_self, if_false, Option.map_some, pageLeaf]

/-- A block for EL1 only that EL0 must not execute. -/
theorem block_el0Access {descriptor tables : Reg} {n : Nat} (h6 : descriptor.getLsbD 6 = false)
    (h54 : descriptor.getLsbD 54 = true) : (Leaf.mk descriptor tables n).el0Access = false := by
  simp only [Leaf.el0Access, Leaf.el0Read, Leaf.el0Write, Leaf.el0Execute, h6, h54, Bool.and_false, Bool.false_and,
    Bool.not_true, Bool.or_self]

/-- Everywhere else EL0 has no access. -/
theorem translate_elsewhere (hL : L.WellPlaced) (m : Memory) (hd : KnownDomain d)
    (hne : ¬ ((va.extractLsb' 30 9).toNat = 1 ∧ (va.extractLsb' 21 9).toNat = 8)) {leaf : Leaf}
    (hleaf : L.translate m d va = some leaf) : leaf.el0Access = false := by
  have hl2 := hL.page (pages_l2 L hd)
  have hdev := hL.page (i := 0) (L := L) (a := L.kernelL2Device) rfl
  have hroot := initTables_l1 hL m hd (index_lt va 30)
  rw [← domainTtbr0Val_root hL hd] at hroot
  by_cases h1 : (va.extractLsb' 30 9).toNat = 1
  · -- kernel memory
    rw [if_pos h1] at hroot
    have hnext := initTables_l2 hL m hd (index_lt va 21)
    rw [← tableDescriptor_next hl2, if_neg fun h2 => hne ⟨h1, h2⟩] at hnext
    have hvalid := tableDescriptor_bit hl2 (i := 0) (Or.inl (by decide))
    have htable := tableDescriptor_bit hl2 (i := 1) (Or.inl (by decide))
    split at hnext
    · rw [Layout.translate, walk_block2 hroot hvalid htable hnext (by decide) (by decide)] at hleaf
      cases hleaf
      exact block_el0Access (by decide) (by decide)
    · rw [Layout.translate, walk_fault2 hroot hvalid htable hnext (by decide)] at hleaf
      cases hleaf
  · rw [if_neg h1] at hroot
    split at hroot
    · -- devices
      have hnext := initTables_device hL m (index_lt va 21)
      rw [← tableDescriptor_next hdev] at hnext
      have hvalid := tableDescriptor_bit hdev (i := 0) (Or.inl (by decide))
      have htable := tableDescriptor_bit hdev (i := 1) (Or.inl (by decide))
      split at hnext
      · rw [Layout.translate, walk_block2 hroot hvalid htable hnext (by decide) (by decide)] at hleaf
        cases hleaf
        exact block_el0Access (by decide) (by decide)
      · split at hnext
        · rw [Layout.translate, walk_block2 hroot hvalid htable hnext (by decide) (by decide)] at hleaf
          cases hleaf
          exact block_el0Access (by decide) (by decide)
        · rw [Layout.translate, walk_fault2 hroot hvalid htable hnext (by decide)] at hleaf
          cases hleaf
    · rw [Layout.translate, walk_fault1 hroot (by decide)] at hleaf
      cases hleaf

/-! ## Permissions -/

/-- Every mapped page is readable; only data pages are writable, only the code page is executable. -/
theorem pageLeaf_el0 (hL : L.WellPlaced) (hd : KnownDomain d) {x : Reg × Reg}
    (hx : L.mapping (L.space d) i = some x) :
    (pageLeaf (L.space d) x).el0Read = true ∧
      ((pageLeaf (L.space d) x).el0Write = true ↔ x.2 = dataAttributes) ∧
      ((pageLeaf (L.space d) x).el0Execute = true ↔ x.2 = codeAttributes) ∧
      (pageLeaf (L.space d) x).nonGlobal = true := by
  obtain ⟨hpage, hattributes⟩ := mapping_placed hL hd hx
  have hl2 := hL.page (pages_l2 L hd)
  have hl3 := hL.page (pages_l3 L hd)
  have htables : ∀ i, 48 ≤ i → (tableDescriptor (L.space d).l2 ||| tableDescriptor (L.space d).l3).getLsbD i =
      (3 : Reg).getLsbD i := fun i hi => by
    rw [BitVec.getLsbD_or, tableDescriptor_bit hl2 (Or.inr hi), tableDescriptor_bit hl3 (Or.inr hi), Bool.or_self]
  have hbit : ∀ i, i < 12 ∨ 48 ≤ i → (pageDescriptor x.1 x.2).getLsbD i = (0x703 ||| x.2 : Reg).getLsbD i :=
    fun i hi => pageDescriptor_bit hpage x.2 hi
  simp only [pageLeaf, Leaf.el0Read, Leaf.el0Write, Leaf.el0Execute, Leaf.nonGlobal,
    hbit 10 (Or.inl (by decide)), hbit 6 (Or.inl (by decide)), hbit 7 (Or.inl (by decide)),
    hbit 11 (Or.inl (by decide)), hbit 54 (Or.inr (by decide)), htables 60 (by decide), htables 61 (by decide),
    htables 62 (by decide)]
  rcases hattributes with h | h | h <;> rw [h] <;> decide

/-- The access succeeds. -/
def Layout.permits (L : Layout) (m : Memory) (d : DomainId) (access : Leaf → Bool) (va : Reg) : Bool :=
  (L.translate m d va).any access

/-- Accesses at EL0 are decided by the mapping. -/
theorem permits_iff (hL : L.WellPlaced) (m : Memory) (hd : KnownDomain d) {access : Leaf → Bool}
    (haccess : ∀ leaf, access leaf = true → leaf.el0Access = true) :
    L.permits m d access va = true ↔ ((va.extractLsb' 30 9).toNat = 1 ∧ (va.extractLsb' 21 9).toNat = 8) ∧
      ∃ x, L.mapping (L.space d) (va.extractLsb' 12 9).toNat = some x ∧ access (pageLeaf (L.space d) x) = true := by
  by_cases hregion : (va.extractLsb' 30 9).toNat = 1 ∧ (va.extractLsb' 21 9).toNat = 8
  · rw [Layout.permits, translate_page hL m hd hregion.1 hregion.2, Option.any_map, Option.any_eq_true]
    simp only [hregion, and_self, true_and]
  · simp only [hregion, false_and, iff_false, Bool.not_eq_true]
    rw [Layout.permits, Option.any_eq_false]
    intro leaf hleaf
    have hnone := translate_elsewhere hL m hd hregion hleaf
    cases hgranted : access leaf with
    | false => rfl
    | true =>
      rw [haccess leaf hgranted] at hnone
      cases hnone

/-- The private and stack page of a domain are entries `n` and `n + 1` of its level 3 table. -/
theorem space_region (L : Layout) (hd : KnownDomain d) :
    ∃ n, (n = 0 ∨ n = 256 ∨ n = 384) ∧ (L.space d).privateVa.toNat = 0x41000000 + 4096 * n ∧
      (L.space d).stackVa.toNat = 0x41000000 + 4096 * (n + 1) ∧ tableIndex (L.space d).privateVa 12 = n ∧
      tableIndex (L.space d).stackVa 12 = n + 1 ∧ ((L.space d).includeRoTestPage = true ↔ d = domainA) := by
  rcases hd with rfl | rfl | rfl
  · exact ⟨0, Or.inl rfl, rfl, rfl, (by decide : tableIndex privateAVa 12 = 0),
      (by decide : tableIndex domainAStackVa 12 = 0 + 1), iff_of_true rfl rfl⟩
  · exact ⟨256, Or.inr (Or.inl rfl), rfl, rfl, (by decide : tableIndex privateBVa 12 = 256),
      (by decide : tableIndex domainBStackVa 12 = 256 + 1), iff_of_false Bool.false_ne_true (by decide)⟩
  · exact ⟨384, Or.inr (Or.inr rfl), rfl, rfl, (by decide : tableIndex privateCVa 12 = 384),
      (by decide : tableIndex domainCStackVa 12 = 384 + 1), iff_of_false Bool.false_ne_true (by decide)⟩

/-- Which level 3 entry maps what; `n` is the entry of the private page. -/
theorem mapping_cases (L : Layout) (hd : KnownDomain d) (i : Nat) :
    ∃ n, (n = 0 ∨ n = 256 ∨ n = 384) ∧ (L.space d).privateVa.toNat = 0x41000000 + 4096 * n ∧
      (L.space d).stackVa.toNat = 0x41000000 + 4096 * (n + 1) ∧
      ((L.mapping (L.space d) i = some (L.roTestPage, readOnlyAttributes) ∧ d = domainA ∧ i = 480) ∨
        (L.mapping (L.space d) i = some (L.sharedBufferPage, dataAttributes) ∧ i = 448) ∨
        (L.mapping (L.space d) i = some (L.el0ServiceCodeStart, codeAttributes) ∧ i = 80) ∨
        (L.mapping (L.space d) i = some ((L.space d).stackPa, dataAttributes) ∧ i = n + 1) ∨
        (L.mapping (L.space d) i = some ((L.space d).privatePa, dataAttributes) ∧ i = n) ∨
        (L.mapping (L.space d) i = none ∧ ¬ (d = domainA ∧ i = 480) ∧ i ≠ 448 ∧ i ≠ 80 ∧ i ≠ n + 1 ∧ i ≠ n)) := by
  obtain ⟨n, hn, hprivate, hstack, hpi, hsi, hro⟩ := space_region L hd
  refine ⟨n, hn, hprivate, hstack, ?_⟩
  unfold Layout.mapping
  rw [hpi, hsi]
  split
  · rename_i h
    exact Or.inl ⟨rfl, hro.1 h.1, h.2⟩
  · rename_i h480
    split
    · rename_i h
      exact Or.inr (Or.inl ⟨rfl, h⟩)
    · rename_i h448
      split
      · rename_i h
        exact Or.inr (Or.inr (Or.inl ⟨rfl, h⟩))
      · rename_i h80
        split
        · rename_i h
          exact Or.inr (Or.inr (Or.inr (Or.inl ⟨rfl, h⟩)))
        · rename_i hs
          split
          · rename_i h
            exact Or.inr (Or.inr (Or.inr (Or.inr (Or.inl ⟨rfl, h⟩))))
          · rename_i hp
            exact Or.inr (Or.inr (Or.inr (Or.inr (Or.inr ⟨rfl, fun h => h480 ⟨hro.2 h.1, h.2⟩, h448, h80, hs, hp⟩))))

/-! ## Virtual pages -/

/-- The address lies in the page at `base`. -/
def InPage (va base : Reg) : Prop := base.toNat ≤ va.toNat ∧ va.toNat < base.toNat + 4096

instance (va base : Reg) : Decidable (InPage va base) := inferInstanceAs (Decidable (_ ∧ _))

/-- The pages of the domain region by their level 3 index. -/
theorem inPage_iff {base : Reg} {p : Nat} (hva : va.toNat < 0x8000000000) (hbase : base.toNat = 0x41000000 + 4096 * p)
    (hp : p < 512) :
    InPage va base ↔ ((va.extractLsb' 30 9).toNat = 1 ∧ (va.extractLsb' 21 9).toNat = 8) ∧
      (va.extractLsb' 12 9).toNat = p := by
  simp only [InPage, hbase, BitVec.extractLsb'_toNat, Nat.shiftRight_eq_div_pow, Nat.reducePow]
  omega

/-! ## What EL0 can do -/

/-- Readable, writable and executable entries of a level 3 table. -/
theorem mapping_iff (L : Layout) (hd : KnownDomain d) (i : Nat) :
    ∃ n, n < 511 ∧ (L.space d).privateVa.toNat = 0x41000000 + 4096 * n ∧
      (L.space d).stackVa.toNat = 0x41000000 + 4096 * (n + 1) ∧
      ((∃ x, L.mapping (L.space d) i = some x) ↔ i = n ∨ i = n + 1 ∨ i = 80 ∨ i = 448 ∨ (d = domainA ∧ i = 480)) ∧
      ((∃ x, L.mapping (L.space d) i = some x ∧ x.2 = dataAttributes) ↔ i = n ∨ i = n + 1 ∨ i = 448) ∧
      ((∃ x, L.mapping (L.space d) i = some x ∧ x.2 = codeAttributes) ↔ i = 80) := by
  have hcd : codeAttributes ≠ dataAttributes := by decide
  have hrd : readOnlyAttributes ≠ dataAttributes := by decide
  have hrc : readOnlyAttributes ≠ codeAttributes := by decide
  obtain ⟨n, hn, hprivate, hstack, hcases⟩ := mapping_cases L hd i
  refine ⟨n, by omega, hprivate, hstack, ?_⟩
  rcases hcases with ⟨hx, ha, hi⟩ | ⟨hx, hi⟩ | ⟨hx, hi⟩ | ⟨hx, hi⟩ | ⟨hx, hi⟩ | ⟨hx, hro, h448, h80, hs, hp⟩ <;>
    simp only [hx, Option.some.injEq, exists_eq', exists_eq_left', reduceCtorEq, false_and, exists_false, hcd, hrd, hrc,
      hcd.symm, true_iff, false_iff]
  · exact ⟨Or.inr (Or.inr (Or.inr (Or.inr ⟨ha, hi⟩))), by omega, by omega⟩
  · exact ⟨by omega, by omega, by omega⟩
  · exact ⟨by omega, by omega, by omega⟩
  · exact ⟨by omega, by omega, by omega⟩
  · exact ⟨by omega, by omega, by omega⟩
  · simp only [hp, hs, h80, h448, hro, or_self, not_false_eq_true, and_self]

theorem permits_read_iff (hL : L.WellPlaced) (m : Memory) (hd : KnownDomain d) (hva : va.toNat < 0x8000000000) :
    L.permits m d Leaf.el0Read va = true ↔
      InPage va (L.space d).privateVa ∨ InPage va (L.space d).stackVa ∨ InPage va serviceCodeVa ∨
        InPage va sharedPageVa ∨ (d = domainA ∧ InPage va roTestPageVa) := by
  obtain ⟨n, hn, hprivate, hstack, hread, -, -⟩ := mapping_iff L hd (va.extractLsb' 12 9).toNat
  have hpage : (∃ x, L.mapping (L.space d) (va.extractLsb' 12 9).toNat = some x ∧
      (pageLeaf (L.space d) x).el0Read = true) ↔ ∃ x, L.mapping (L.space d) (va.extractLsb' 12 9).toNat = some x :=
    ⟨fun ⟨x, hx, _⟩ => ⟨x, hx⟩, fun ⟨x, hx⟩ => ⟨x, hx, (pageLeaf_el0 hL hd hx).1⟩⟩
  rw [permits_iff hL m hd fun leaf h => by rw [Leaf.el0Access, h, Bool.true_or, Bool.true_or],
    hpage, hread, inPage_iff hva hprivate (by omega), inPage_iff hva hstack (by omega),
    inPage_iff hva (show serviceCodeVa.toNat = 0x41000000 + 4096 * 80 from rfl) (by omega),
    inPage_iff hva (show sharedPageVa.toNat = 0x41000000 + 4096 * 448 from rfl) (by omega),
    inPage_iff hva (show roTestPageVa.toNat = 0x41000000 + 4096 * 480 from rfl) (by omega)]
  by_cases hregion : (va.extractLsb' 30 9).toNat = 1 ∧ (va.extractLsb' 21 9).toNat = 8
  · simp only [hregion, and_self, true_and]
  · simp only [hregion, false_and, and_false, or_self]

theorem permits_write_iff (hL : L.WellPlaced) (m : Memory) (hd : KnownDomain d) (hva : va.toNat < 0x8000000000) :
    L.permits m d Leaf.el0Write va = true ↔
      InPage va (L.space d).privateVa ∨ InPage va (L.space d).stackVa ∨ InPage va sharedPageVa := by
  obtain ⟨n, hn, hprivate, hstack, -, hwrite, -⟩ := mapping_iff L hd (va.extractLsb' 12 9).toNat
  have hpage : (∃ x, L.mapping (L.space d) (va.extractLsb' 12 9).toNat = some x ∧
      (pageLeaf (L.space d) x).el0Write = true) ↔
        ∃ x, L.mapping (L.space d) (va.extractLsb' 12 9).toNat = some x ∧ x.2 = dataAttributes :=
    exists_congr fun x => and_congr_right fun hx => (pageLeaf_el0 hL hd hx).2.1
  rw [permits_iff hL m hd fun leaf h => by rw [Leaf.el0Access, h, Bool.or_true, Bool.true_or],
    hpage, hwrite, inPage_iff hva hprivate (by omega), inPage_iff hva hstack (by omega),
    inPage_iff hva (show sharedPageVa.toNat = 0x41000000 + 4096 * 448 from rfl) (by omega)]
  by_cases hregion : (va.extractLsb' 30 9).toNat = 1 ∧ (va.extractLsb' 21 9).toNat = 8
  · simp only [hregion, and_self, true_and]
  · simp only [hregion, false_and, or_self]

theorem permits_execute_iff (hL : L.WellPlaced) (m : Memory) (hd : KnownDomain d) (hva : va.toNat < 0x8000000000) :
    L.permits m d Leaf.el0Execute va = true ↔ InPage va serviceCodeVa := by
  obtain ⟨n, hn, hprivate, hstack, -, -, hexecute⟩ := mapping_iff L hd (va.extractLsb' 12 9).toNat
  have hpage : (∃ x, L.mapping (L.space d) (va.extractLsb' 12 9).toNat = some x ∧
      (pageLeaf (L.space d) x).el0Execute = true) ↔
        ∃ x, L.mapping (L.space d) (va.extractLsb' 12 9).toNat = some x ∧ x.2 = codeAttributes :=
    exists_congr fun x => and_congr_right fun hx => (pageLeaf_el0 hL hd hx).2.2.1
  rw [permits_iff hL m hd fun leaf h => by rw [Leaf.el0Access, h, Bool.or_true],
    hpage, hexecute, inPage_iff hva (show serviceCodeVa.toNat = 0x41000000 + 4096 * 80 from rfl) (by omega)]

/-- Nothing is both writable and executable. -/
theorem permits_write_or_execute (hL : L.WellPlaced) (m : Memory) (hd : KnownDomain d)
    (hva : va.toNat < 0x8000000000) :
    ¬ (L.permits m d Leaf.el0Write va = true ∧ L.permits m d Leaf.el0Execute va = true) := by
  obtain ⟨n, hn, hprivate, hstack, -⟩ := space_region L hd
  rw [permits_write_iff hL m hd hva, permits_execute_iff hL m hd hva]
  simp only [InPage, hprivate, hstack, show serviceCodeVa.toNat = 0x41050000 from rfl,
    show sharedPageVa.toNat = 0x411c0000 from rfl]
  omega

theorem el0Access_nonGlobal (hL : L.WellPlaced) (m : Memory) (hd : KnownDomain d) {leaf : Leaf}
    (hleaf : L.translate m d va = some leaf) (haccess : leaf.el0Access = true) : leaf.nonGlobal = true := by
  by_cases hregion : (va.extractLsb' 30 9).toNat = 1 ∧ (va.extractLsb' 21 9).toNat = 8
  · rw [translate_page hL m hd hregion.1 hregion.2] at hleaf
    obtain ⟨x, hx, rfl⟩ := Option.map_eq_some_iff.1 hleaf
    exact (pageLeaf_el0 hL hd hx).2.2.2
  · rw [translate_elsewhere hL m hd hregion hleaf] at haccess
    cases haccess

/-! ## Physical pages -/

/-- The page at physical address `q` can be written at EL0 in domain `d`. -/
def Layout.WritablePage (L : Layout) (m : Memory) (d : DomainId) (q : Nat) : Prop :=
  ∃ va leaf, va.toNat < 0x8000000000 ∧ L.translate m d va = some leaf ∧ leaf.el0Write = true ∧ leaf.physicalPage va = q

theorem pageLeaf_physicalPage (hL : L.WellPlaced) (hd : KnownDomain d) {x : Reg × Reg}
    (hx : L.mapping (L.space d) i = some x) (va : Reg) : (pageLeaf (L.space d) x).physicalPage va = x.1.toNat := by
  obtain ⟨hpage, hattributes⟩ := mapping_placed hL hd hx
  apply physicalPage_page
  rw [pageDescriptor_eq hpage]
  apply nextTable_or hpage.1 hpage.2
  rcases hattributes with h | h | h <;> rw [h] <;> decide

/-- A domain writes its private page, its stack page and the shared page. -/
theorem writablePage_cases (hL : L.WellPlaced) {q : Nat} (hd : KnownDomain d) (hq : L.WritablePage m d q) :
    q = (L.space d).privatePa.toNat ∨ q = (L.space d).stackPa.toNat ∨ q = L.sharedBufferPage.toNat := by
  obtain ⟨va, leaf, -, hleaf, hwrite, rfl⟩ := hq
  by_cases hregion : (va.extractLsb' 30 9).toNat = 1 ∧ (va.extractLsb' 21 9).toNat = 8
  · rw [translate_page hL m hd hregion.1 hregion.2] at hleaf
    obtain ⟨x, hx, rfl⟩ := Option.map_eq_some_iff.1 hleaf
    have hdata := (pageLeaf_el0 hL hd hx).2.1.1 hwrite
    rw [pageLeaf_physicalPage hL hd hx]
    obtain ⟨n, -, -, -, hcases⟩ := mapping_cases L hd (va.extractLsb' 12 9).toNat
    rw [hx] at hcases
    rcases hcases with ⟨h, -⟩ | ⟨h, -⟩ | ⟨h, -⟩ | ⟨h, -⟩ | ⟨h, -⟩ | ⟨h, -⟩
    · cases h
      exact absurd hdata (show readOnlyAttributes ≠ dataAttributes by decide)
    · cases h
      exact Or.inr (Or.inr rfl)
    · cases h
      exact absurd hdata (show codeAttributes ≠ dataAttributes by decide)
    · cases h
      exact Or.inr (Or.inl rfl)
    · cases h
      exact Or.inl rfl
    · cases h
  · have hnone := translate_elsewhere hL m hd hregion hleaf
    rw [Leaf.el0Access, hwrite, Bool.or_true, Bool.true_or] at hnone
    cases hnone

theorem writablePage_shared (hL : L.WellPlaced) (m : Memory) (hd : KnownDomain d) :
    L.WritablePage m d L.sharedBufferPage.toNat := by
  have hx : L.mapping (L.space d) (sharedPageVa.extractLsb' 12 9).toNat = some (L.sharedBufferPage, dataAttributes) := by
    rw [Layout.mapping, if_neg fun h => absurd h.2 (by decide), if_pos (by decide)]
  refine ⟨sharedPageVa, pageLeaf (L.space d) (L.sharedBufferPage, dataAttributes), by decide, ?_, ?_, ?_⟩
  · rw [translate_page hL m hd (by decide) (by decide), hx, Option.map_some]
  · exact (pageLeaf_el0 hL hd hx).2.1.2 rfl
  · exact pageLeaf_physicalPage hL hd hx sharedPageVa

/-- The pages of the layout and the private page of domain A, which is none of them. -/
theorem frames_nodup (hL : L.WellPlaced) : (L.pages ++ [privateAPa]).Nodup := by
  rw [List.nodup_append]
  refine ⟨hL.distinct, List.nodup_singleton _, fun a ha b hb => ?_⟩
  rw [List.mem_singleton.1 hb]
  rintro rfl
  exact absurd (hL.kernel _ ha).2 (by decide)

theorem frames_private (L : Layout) (hd : KnownDomain d) :
    (L.pages ++ [privateAPa])[if domainIndex d = 0 then 19 else 10 + 2 * domainIndex d]? =
      some (L.space d).privatePa := by
  rcases hd with rfl | rfl | rfl <;> rfl

theorem frames_stack (L : Layout) (hd : KnownDomain d) :
    (L.pages ++ [privateAPa])[11 + 2 * domainIndex d]? = some (L.space d).stackPa := by
  rcases hd with rfl | rfl | rfl <;> rfl

theorem frames_ne (hL : L.WellPlaced) (ha : (L.pages ++ [privateAPa])[i]? = some a)
    (hb : (L.pages ++ [privateAPa])[j]? = some b) (hij : i ≠ j) : a.toNat ≠ b.toNat := by
  intro hab
  obtain rfl := BitVec.eq_of_toNat_eq hab
  obtain ⟨hi, -⟩ := List.getElem?_eq_some_iff.1 ha
  exact hij ((List.getElem?_inj hi (frames_nodup hL)).1 (ha.trans hb.symm))

/-- Two domains write one physical page only if it is the shared one. -/
theorem writablePage_both (hL : L.WellPlaced) {d' : DomainId} (hd : KnownDomain d) (hd' : KnownDomain d')
    (hne : d ≠ d') {q : Nat} (hq : L.WritablePage m d q) (hq' : L.WritablePage m d' q) :
    q = L.sharedBufferPage.toNat := by
  have hindex : domainIndex d ≠ domainIndex d' := fun h => hne (domainIndex_inj hd hd' h)
  have hlt : ∀ {d}, KnownDomain d → domainIndex d < 3 := by
    rintro d (rfl | rfl | rfl) <;> decide
  have h3 := hlt hd
  have h3' := hlt hd'
  have hshared : (L.pages ++ [privateAPa])[16]? = some L.sharedBufferPage := rfl
  rcases writablePage_cases hL hd hq with rfl | rfl | rfl
  · rcases writablePage_cases hL hd' hq' with h | h | h
    · exact absurd h (frames_ne hL (frames_private L hd) (frames_private L hd') (by split <;> split <;> omega))
    · exact absurd h (frames_ne hL (frames_private L hd) (frames_stack L hd') (by split <;> omega))
    · exact h
  · rcases writablePage_cases hL hd' hq' with h | h | h
    · exact absurd h (frames_ne hL (frames_stack L hd) (frames_private L hd') (by split <;> omega))
    · exact absurd h (frames_ne hL (frames_stack L hd) (frames_stack L hd') (by omega))
    · exact h
  · rfl

end

/-- **Isolation of the address spaces**: with the arrays on different pages of kernel memory, whatever
memory held before, code at EL0 in a domain reads exactly the domain's private page, its stack, the
service code, the shared page and, in domain A, the read-only test page; it writes exactly the
private page, the stack and the shared page, and executes exactly the service code. Everything it
reaches is tagged with the ASID, and no physical page is writable in two domains but the shared
one. -/
theorem address_space_isolation (L : Layout) (hL : L.WellPlaced) (m : Memory) :
    (∀ d, KnownDomain d → ∀ va : Reg, va.toNat < 0x8000000000 →
      (L.permits m d Leaf.el0Read va = true ↔
        InPage va (L.space d).privateVa ∨ InPage va (L.space d).stackVa ∨ InPage va serviceCodeVa ∨
          InPage va sharedPageVa ∨ (d = domainA ∧ InPage va roTestPageVa)) ∧
      (L.permits m d Leaf.el0Write va = true ↔
        InPage va (L.space d).privateVa ∨ InPage va (L.space d).stackVa ∨ InPage va sharedPageVa) ∧
      (L.permits m d Leaf.el0Execute va = true ↔ InPage va serviceCodeVa) ∧
      ¬ (L.permits m d Leaf.el0Write va = true ∧ L.permits m d Leaf.el0Execute va = true) ∧
      (∀ leaf, L.translate m d va = some leaf → leaf.el0Access = true → leaf.nonGlobal = true)) ∧
    (∀ d d', KnownDomain d → KnownDomain d' → d ≠ d' → ∀ q,
      L.WritablePage m d q ∧ L.WritablePage m d' q ↔ q = L.sharedBufferPage.toNat) := by
  constructor
  · intro d hd va hva
    exact ⟨permits_read_iff hL m hd hva, permits_write_iff hL m hd hva, permits_execute_iff hL m hd hva,
      permits_write_or_execute hL m hd hva, fun leaf hleaf haccess => el0Access_nonGlobal hL m hd hleaf haccess⟩
  · intro d d' hd hd' hne q
    constructor
    · rintro ⟨hq, hq'⟩
      exact writablePage_both hL hd hd' hne hq hq'
    · rintro rfl
      exact ⟨writablePage_shared hL m hd, writablePage_shared hL m hd'⟩

/-- The arrays one after the other, in the order of `Layout.pages`. -/
def consecutiveLayout : Layout where
  l1Root := fun k => 0x40101000 + BitVec.ofNat 64 (0x3000 * k)
  pacSign := fun pointer _ => pointer
  pacAuth := fun pointer _ => pointer
  kernelL2Device := 0x40100000
  l2 := fun k => 0x40102000 + BitVec.ofNat 64 (0x3000 * k)
  l3 := fun k => 0x40103000 + BitVec.ofNat 64 (0x3000 * k)
  privatePage := fun k => 0x4010a000 + BitVec.ofNat 64 (0x2000 * k)
  stackPage := fun k => 0x4010b000 + BitVec.ofNat 64 (0x2000 * k)
  sharedBufferPage := 0x40110000
  roTestPage := 0x40111000
  el0ServiceCodeStart := 0x40112000

theorem consecutiveLayout_wellPlaced : consecutiveLayout.WellPlaced := by
  have hpages : consecutiveLayout.pages = [0x40100000, 0x40101000, 0x40102000, 0x40103000, 0x40104000, 0x40105000,
      0x40106000, 0x40107000, 0x40108000, 0x40109000, 0x4010a000, 0x4010b000, 0x4010c000, 0x4010d000, 0x4010e000,
      0x4010f000, 0x40110000, 0x40111000, 0x40112000] := by decide
  refine ⟨?_, ?_, ?_⟩ <;> rw [hpages]
  · decide
  · simp only [List.mem_cons, List.not_mem_nil, or_false, forall_eq_or_imp, forall_eq]
    decide
  · simp only [List.mem_cons, List.not_mem_nil, or_false, forall_eq_or_imp, forall_eq]
    decide

/-- There domain A writes its private page and domain B cannot read it. -/
theorem address_space_isolation_consecutive :
    consecutiveLayout.permits (fun _ => 0) domainA Leaf.el0Write 0x41000010 = true ∧
      ¬ consecutiveLayout.permits (fun _ => 0) domainB Leaf.el0Read 0x41000010 = true := by
  obtain ⟨haccess, -⟩ := address_space_isolation consecutiveLayout consecutiveLayout_wellPlaced fun _ => 0
  refine ⟨(haccess domainA (by decide) 0x41000010 (by decide)).2.1.2 (Or.inl (by decide)), fun hread => ?_⟩
  exact absurd ((haccess domainB (by decide) 0x41000010 (by decide)).1.1 hread) (by decide)

end Lettuce
