import LettuceKernel.Memory
/-!
# The active pages are partitioned into blocks

Every page of a block carries the whole record of the block, and the two span loops of
`fixed.c` rewrite those copies. `Blocks` says that the copies always agree: an active page
lies inside the span its record names, and every page of that span holds the same record. It
is kept because `allocate` writes over inactive pages only and `release` over one whole block.
-/

namespace Lettuce

open Runs

/-- The pages of the block a record describes. -/
def InSpan (a : Allocation) (j : Nat) : Prop := a.firstPage.toNat ≤ j ∧ j < a.firstPage.toNat + a.pageCount.toNat

instance (a : Allocation) (j : Nat) : Decidable (InSpan a j) := inferInstanceAs (Decidable (_ ∧ _))

/-- The block structure behind page `i`. -/
structure BlockAt (t : PageTable) (i : Nat) : Prop where
  count : 1 ≤ (t i).pageCount.toNat
  self : InSpan (t i) i
  pool : (t i).firstPage.toNat + (t i).pageCount.toNat ≤ totalPages
  domain : (t i).domain ≠ 0
  copies : ∀ j, InSpan (t i) j → t j = t i

def Blocks (t : PageTable) : Prop := ∀ i, i < totalPages → (t i).active = true → BlockAt t i

section
variable {t : PageTable}

theorem memoryInit_blocks (t : PageTable) : Blocks (memoryInit t) := by
  intro i hi hact
  rw [memoryInit, if_pos hi] at hact
  cases hact

/-- Two active pages whose blocks meet belong to one block. -/
theorem Blocks.eq_of_inSpan (hb : Blocks t) {i j k : Nat} (hi : i < totalPages) (hj : j < totalPages)
    (hai : (t i).active = true) (haj : (t j).active = true) (hik : InSpan (t i) k) (hjk : InSpan (t j) k) :
    t i = t j :=
  ((hb i hi hai).copies k hik).symm.trans ((hb j hj haj).copies k hjk)

/-- The spans of two blocks are disjoint. -/
theorem Blocks.disjoint (hb : Blocks t) {i j : Nat} (hi : i < totalPages) (hj : j < totalPages)
    (hai : (t i).active = true) (haj : (t j).active = true) :
    t i = t j ∨ (t i).firstPage.toNat + (t i).pageCount.toNat ≤ (t j).firstPage.toNat ∨
      (t j).firstPage.toNat + (t j).pageCount.toNat ≤ (t i).firstPage.toNat := by
  by_cases heq : t i = t j
  · exact Or.inl heq
  · right
    have hci := (hb i hi hai).count
    have hcj := (hb j hj haj).count
    -- otherwise the larger of the two first pages lies in both spans
    by_contra hmeet
    simp only [not_or, Nat.not_le] at hmeet
    refine heq (hb.eq_of_inSpan (k := max (t i).firstPage.toNat (t j).firstPage.toNat) hi hj hai haj ?_ ?_)
    · exact ⟨by omega, by omega⟩
    · exact ⟨by omega, by omega⟩

/-- A block is untouched when none of its pages is written. -/
theorem BlockAt.congr {t' : PageTable} {i : Nat} (hblock : BlockAt t i) (h : ∀ j, InSpan (t i) j → t' j = t j) :
    BlockAt t' i := by
  have hi : t' i = t i := h i hblock.self
  constructor
  · rw [hi]; exact hblock.count
  · rw [hi]; exact hblock.self
  · rw [hi]; exact hblock.pool
  · rw [hi]; exact hblock.domain
  · intro j hj
    rw [hi] at hj ⊢
    exact (h j hj).trans (hblock.copies j hj)

/-! ## Allocation -/

/-- Filling a free span with its own record makes it a block. -/
theorem Blocks.fill (hb : Blocks t) {start pages : Nat} {a : Allocation} (hpool : start + pages ≤ totalPages)
    (hfree : ∀ i, start ≤ i → i < start + pages → (t i).active = false) (hstart : a.firstPage.toNat = start)
    (hpages : a.pageCount.toNat = pages) (hdomain : a.domain ≠ 0) : Blocks (fillSpan t start pages a) := by
  intro i hi hact
  by_cases hspan : start ≤ i ∧ i < start + pages
  · have hself : fillSpan t start pages a i = a := by rw [fillSpan_apply, if_pos hspan]
    constructor
    · rw [hself, hpages]; omega
    · rw [hself, InSpan, hstart, hpages]; exact hspan
    · rw [hself, hstart, hpages]; exact hpool
    · rw [hself]; exact hdomain
    · intro j hj
      rw [hself] at hj ⊢
      rw [InSpan, hstart, hpages] at hj
      rw [fillSpan_apply, if_pos hj]
  · rw [fillSpan_apply, if_neg hspan] at hact
    have hblock := hb i hi hact
    refine hblock.congr fun j hj => ?_
    -- a page of an old block is active, so the span does not reach it
    have hjspan : ¬ (start ≤ j ∧ j < start + pages) := fun hin => by
      rw [← hblock.copies j hj, hfree j hin.1 hin.2] at hact
      cases hact
    rw [fillSpan_apply, if_neg hjspan]

theorem Blocks.allocate (hb : Blocks t) (domain : DomainId) (size : Reg) (hasHandle : Bool) :
    Blocks (memoryAllocate t domain size hasHandle).1 := by
  cases hres : (memoryAllocate t domain size hasHandle).2 with
  | error status => rw [memoryAllocate_error hres]; exact hb
  | ok handle =>
    obtain ⟨start, hfit, hdomain, -, -, heq⟩ := memoryAllocate_ok hres
    obtain ⟨hpool, hfree⟩ := firstFit_eq_some hfit
    have hp : totalPages = 64 := rfl
    rw [heq]
    refine hb.fill hpool hfree ?_ ?_ hdomain
    · rw [BitVec.toNat_ofNat]; omega
    · rw [BitVec.toNat_ofNat]; omega

/-! ## Release -/

/-- A release rewrites the pages of one block and no other. -/
theorem Heads.release {f : Nat} (hf : Heads t f) (a : Allocation) (i : Nat) :
    fillSpan t f (t f).pageCount.toNat a i = if InSpan (t f) i then a else t i := by
  rw [fillSpan_apply]
  simp only [InSpan, hf.2.2]

theorem Blocks.unfill (hb : Blocks t) {f : Nat} (hf : Heads t f) (g : BitVec 16) :
    Blocks (fillSpan t f (t f).pageCount.toNat (.unused g)) := by
  intro i hi hact
  rw [hf.release] at hact
  split at hact
  · cases hact
  · rename_i hspan
    have hblock := hb i hi hact
    refine hblock.congr fun j hj => ?_
    -- blocks that meet are equal, and page `i` is not in the released one
    have hjspan : ¬ InSpan (t f) j := fun hjf => by
      rw [← hb.eq_of_inSpan hi hf.1 hact hf.2.1 hj hjf] at hspan
      exact hspan hblock.self
    rw [hf.release, if_neg hjspan]

theorem Blocks.release (hb : Blocks t) (handle : MemoryHandle) (domain : DomainId) :
    Blocks (memoryRelease t handle domain).1 := by
  rcases memoryRelease_cases t handle domain with ⟨-, heq⟩ | ⟨-, f, hf⟩
  · rw [heq]; exact hb
  · rw [memoryRelease_ok hf]
    exact hb.unfill (memoryHead_eq_ok.1 hf).1 _

theorem Blocks.step (hb : Blocks t) (c : MemoryCall) : Blocks (memoryStep t c) := by
  cases c with
  | allocate domain size hasHandle => exact hb.allocate domain size hasHandle
  | release handle domain => exact hb.release handle domain
  | data handle domain => exact hb

end

/-! ## What the table stands for -/

/-- The page table as a set of blocks. -/
structure Partition (t : PageTable) : Prop where
  blocks : Blocks t
  disjoint : ∀ i j, i < totalPages → j < totalPages → (t i).active = true → (t j).active = true →
    (t i).firstPage ≠ (t j).firstPage →
    (t i).firstPage.toNat + (t i).pageCount.toNat ≤ (t j).firstPage.toNat ∨
      (t j).firstPage.toNat + (t j).pageCount.toNat ≤ (t i).firstPage.toNat
  /-- Only the handle of its head, for its domain, reaches a block. -/
  data : ∀ handle domain offset, memoryData t handle domain = some offset ↔
    ∃ f, Heads t f ∧ handle = SlotHandle.make f (t f).generation ∧ domain = (t f).domain ∧ offset = f * 4096
  released : ∀ handle domain, (memoryRelease t handle domain).2 = .ok ↔
    ∃ f, Heads t f ∧ handle = SlotHandle.make f (t f).generation ∧ domain = (t f).domain
  /-- A release deactivates the pages of its block and changes no other. -/
  frame : ∀ handle domain f, Heads t f → handle = SlotHandle.make f (t f).generation → domain = (t f).domain →
    ∀ i, if InSpan (t f) i then ((memoryRelease t handle domain).1 i).active = false
      else (memoryRelease t handle domain).1 i = t i
  refusedAllocate : ∀ domain size hasHandle status, (memoryAllocate t domain size hasHandle).2 = .error status →
    memoryStep t (.allocate domain size hasHandle) = t
  refusedRelease : ∀ handle domain, (memoryRelease t handle domain).2 ≠ .ok → memoryStep t (.release handle domain) = t
  readOnly : ∀ handle domain, memoryStep t (.data handle domain) = t

/-- A head with its handle and domain passes the checks. -/
theorem Blocks.memoryHead_iff {t : PageTable} (hb : Blocks t) {handle : MemoryHandle} {domain : DomainId} {f : Nat} :
    memoryHead t handle domain = .ok f ↔
      Heads t f ∧ handle = SlotHandle.make f (t f).generation ∧ domain = (t f).domain := by
  rw [memoryHead_eq_ok]
  constructor
  · rintro ⟨hf, -, hh, hd⟩
    exact ⟨hf, hh, hd⟩
  · rintro ⟨hf, hh, hd⟩
    exact ⟨hf, by rw [hd]; exact (hb f hf.1 hf.2.1).domain, hh, hd⟩

theorem Blocks.partition {t : PageTable} (hb : Blocks t) : Partition t where
  blocks := hb
  disjoint := by
    intro i j hi hj hai haj hne
    rcases hb.disjoint hi hj hai haj with heq | hdisj
    · exact absurd (by rw [heq]) hne
    · exact hdisj
  data := by
    intro handle domain offset
    unfold memoryData
    constructor
    · intro h
      split at h
      · cases h
      · rename_i f hf
        cases h
        obtain ⟨hheads, hh, hd⟩ := hb.memoryHead_iff.1 hf
        exact ⟨f, hheads, hh, hd, rfl⟩
    · rintro ⟨f, hheads, hh, hd, rfl⟩
      rw [hb.memoryHead_iff.2 ⟨hheads, hh, hd⟩]
  released := by
    intro handle domain
    constructor
    · intro h
      rcases memoryRelease_cases t handle domain with ⟨hne, -⟩ | ⟨-, f, hf⟩
      · exact absurd h hne
      · exact ⟨f, hb.memoryHead_iff.1 hf⟩
    · rintro ⟨f, hf⟩
      rw [memoryRelease_ok (hb.memoryHead_iff.2 hf)]
  frame := by
    intro handle domain f hf hh hd i
    rw [memoryRelease_ok (hb.memoryHead_iff.2 ⟨hf, hh, hd⟩)]
    dsimp only
    rw [hf.release]
    split
    · rfl
    · rfl
  refusedAllocate := fun _ _ _ _ h => memoryAllocate_error h
  refusedRelease := by
    intro handle domain h
    rcases memoryRelease_cases t handle domain with ⟨-, heq⟩ | ⟨hok, -⟩
    · exact heq
    · exact absurd hok h
  readOnly := fun _ _ => rfl

/-- **The page table is a partition into blocks**: in every state reached from
`lettuce_memory_init` by allocations, releases and data calls with any arguments, the records
of the active pages agree within each block and blocks are disjoint, one handle and domain
reach a block, a release frees exactly its block, and a refused call changes nothing. -/
theorem page_table_partition (t₀ : PageTable) {h : MemoryHistory} {t : PageTable}
    (r : Run anyStep memoryStep (memoryInit t₀) h t) : Partition t :=
  (r.invariant (I := Blocks) (memoryInit_blocks t₀) fun _ c _ hb => hb.step c).partition

/-- The allocator part of `memory_unit.c`: 5000 bytes are pages 0 and 1, in domain 10. -/
def twoPageRun : MemoryHistory × PageTable :=
  traceFrom memoryStep [] (memoryInit memoryBoot) [.allocate 10 5000 true]

theorem page_table_partition_two_pages :
    memoryData twoPageRun.2 0x00010001 10 = some 0 ∧
      (memoryRelease twoPageRun.2 0x00010001 10).1 5 = twoPageRun.2 5 := by
  have r : Run anyStep memoryStep (memoryInit memoryBoot) twoPageRun.1 twoPageRun.2 :=
    Run.start.trace (admits_anyStep _ _)
  have hp := page_table_partition memoryBoot r
  have hf : Heads twoPageRun.2 0 := ⟨by decide, by decide +kernel, by decide +kernel⟩
  refine ⟨(hp.data _ _ _).2 ⟨0, hf, by decide +kernel, by decide +kernel, rfl⟩, ?_⟩
  have hframe := hp.frame 0x00010001 10 0 hf (by decide +kernel) (by decide +kernel) 5
  rwa [if_neg (by unfold InSpan; decide +kernel)] at hframe

end Lettuce
