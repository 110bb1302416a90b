import LettuceKernel.MemoryStale
/-!
# Allocation is first fit

`lettuce_memory_allocate` (fixed.c:61) rounds the size up to pages, answers OVERFLOW when they
do not fit 16 bits, and otherwise takes the lowest span of free pages that is long enough.
`ExactFirstFit` says so with the rounding done in exact arithmetic. The code rounds in
`size_t`: `size + 4095` wraps for the 4095 largest sizes, which then need 0 pages, pass the
OVERFLOW check and are answered OK. Every other size is served exactly.
-/

namespace Lettuce

open Runs

/-- ⌈size / 4096⌉. -/
def pagesNeeded (size : Reg) : Nat := (size.toNat + 4095) / 4096

/-- `pages` consecutive pages of the pool from `start` on are inactive. -/
def FreeFrom (t : PageTable) (start pages : Nat) : Prop :=
  start + pages ≤ totalPages ∧ ∀ i, start ≤ i → i < start + pages → (t i).active = false

/-- What `lettuce_memory_allocate` does for a domain and a size it accepts; an error carries no
handle, so `*handle` is not written. -/
structure ExactFirstFit (t : PageTable) (domain : DomainId) (size : Reg) : Prop where
  overflow : 65535 < pagesNeeded size → memoryAllocate t domain size true = (t, .error .overflow)
  /-- The lowest span becomes one block of the domain, and nothing else changes. -/
  fits : pagesNeeded size ≤ 65535 → (∃ start, FreeFrom t start (pagesNeeded size)) →
    ∃ start handle generation, FreeFrom t start (pagesNeeded size) ∧
      (∀ s, FreeFrom t s (pagesNeeded size) → start ≤ s) ∧
      (memoryAllocate t domain size true).2 = .ok handle ∧
      (∀ i, (memoryAllocate t domain size true).1 i =
        if start ≤ i ∧ i < start + pagesNeeded size then
          { firstPage := BitVec.ofNat 16 start, pageCount := BitVec.ofNat 16 (pagesNeeded size), domain, generation,
            active := true }
        else t i) ∧
      memoryData (memoryAllocate t domain size true).1 handle domain = some (start * 4096)
  unavailable : pagesNeeded size ≤ 65535 → (¬ ∃ start, FreeFrom t start (pagesNeeded size)) →
    memoryAllocate t domain size true = (t, .error .unavailable)

section
variable {t : PageTable} {domain : DomainId} {size : Reg}

theorem FirstFree.freeFrom {start pages : Nat} (h : FirstFree t start pages) : FreeFrom t start pages :=
  ⟨h.1, freeSpan_eq_true.1 h.2.1⟩

theorem FirstFree.least {start pages s : Nat} (h : FirstFree t start pages) (hs : FreeFrom t s pages) : start ≤ s := by
  by_contra hlt
  have hbusy := h.2.2 s (by omega)
  rw [freeSpan_eq_true.2 hs.2] at hbusy
  cases hbusy

/-- The search fails only if there is no span. -/
theorem firstFit_eq_none {pages : Nat} (h : firstFit t pages = none) : ¬ ∃ start, FreeFrom t start pages := by
  rintro ⟨start, hpool, hfree⟩
  rw [firstFit, List.find?_eq_none] at h
  refine h start ?_ (freeSpan_eq_true.2 hfree)
  rw [List.mem_range]
  omega

/-- The checks before the search, for arguments they accept. -/
theorem memoryAllocate_eq (hdomain : domain ≠ 0) (hsize : size ≠ 0) :
    memoryAllocate t domain size true =
      if pagesFor size > 65535 then (t, .error .overflow)
      else match firstFit t (pagesFor size) with
        | none => (t, .error .unavailable)
        | some start =>
          (fillSpan t start (pagesFor size)
            { firstPage := BitVec.ofNat 16 start, pageCount := BitVec.ofNat 16 (pagesFor size), domain,
              generation := SlotHandle.issuedGeneration (t start).generation, active := true },
            .ok (SlotHandle.make start (SlotHandle.issuedGeneration (t start).generation))) := by
  have hargs : ¬ (domain = 0 ∨ size = 0 ∨ true = false) := by
    rintro (h | h | h)
    · exact hdomain h
    · exact hsize h
    · cases h
  unfold memoryAllocate
  exact if_neg hargs

/-- The head of a block just written answers to its handle. -/
theorem memoryData_fillSpan {start pages : Nat} {generation : BitVec 16} (hdomain : domain ≠ 0) (hpages : 0 < pages)
    (hpool : start + pages ≤ totalPages) :
    memoryData (fillSpan t start pages
      { firstPage := BitVec.ofNat 16 start, pageCount := BitVec.ofNat 16 pages, domain, generation, active := true })
      (SlotHandle.make start generation) domain = some (start * 4096) := by
  have hp : totalPages = 64 := rfl
  have hat := fillSpan_apply t start pages
    { firstPage := BitVec.ofNat 16 start, pageCount := BitVec.ofNat 16 pages, domain, generation, active := true } start
  rw [if_pos (by omega)] at hat
  have hhead : memoryHead (fillSpan t start pages
      { firstPage := BitVec.ofNat 16 start, pageCount := BitVec.ofNat 16 pages, domain, generation, active := true })
      (SlotHandle.make start generation) domain = .ok start := by
    rw [memoryHead_eq_ok, Heads, hat]
    refine ⟨⟨by omega, rfl, ?_⟩, hdomain, rfl, rfl⟩
    rw [BitVec.toNat_ofNat]
    omega
  rw [memoryData, hhead]

theorem exactFirstFit_of_le (hdomain : domain ≠ 0) (hsize : size ≠ 0) (h : size ≤ 0xFFFFFFFFFFFFF000) :
    ExactFirstFit t domain size := by
  have hpages : pagesFor size = pagesNeeded size := pagesFor_eq h
  have hpos : 0 < pagesNeeded size := hpages ▸ pagesFor_pos hsize h
  have heq := memoryAllocate_eq (t := t) hdomain hsize
  rw [hpages] at heq
  refine ⟨fun hover => ?_, fun hle hfree => ?_, fun hle hfree => ?_⟩
  · rw [heq, if_pos hover]
  · rw [heq, if_neg (by omega)]
    cases hfit : firstFit t (pagesNeeded size) with
    | none => exact absurd hfree (firstFit_eq_none hfit)
    | some start =>
      have hfirst := firstFit_firstFree hfit
      refine ⟨start, SlotHandle.make start (SlotHandle.issuedGeneration (t start).generation),
        SlotHandle.issuedGeneration (t start).generation, hfirst.freeFrom, fun s => hfirst.least, rfl, fun i => ?_, ?_⟩
      · dsimp only
        rw [fillSpan_apply]
      · exact memoryData_fillSpan hdomain hpos hfirst.1
  · rw [heq, if_neg (by omega)]
    cases hfit : firstFit t (pagesNeeded size) with
    | none => rfl
    | some start => exact absurd ⟨start, (firstFit_firstFree hfit).freeFrom⟩ hfree

/-- A size that wraps is rounded to 0 pages and gets page 0. -/
theorem memoryAllocate_wrapped (hdomain : domain ≠ 0) (h : ¬ size ≤ 0xFFFFFFFFFFFFF000) :
    (memoryAllocate t domain size true).2 = .ok (SlotHandle.make 0 (SlotHandle.issuedGeneration (t 0).generation)) := by
  have hlt : 18446744073709547520 < size.toNat := by simpa [BitVec.le_def] using h
  have hsize : size ≠ 0 := by
    rintro rfl
    simp at hlt
  have hsum : (size + 4096 - 1).toNat < 4096 := by
    have := size.isLt
    rw [BitVec.toNat_sub, BitVec.toNat_add, show (4096 : BitVec 64).toNat = 4096 from rfl,
      show (1 : BitVec 64).toNat = 1 from rfl]
    omega
  have hpages : pagesFor size = 0 := by
    rw [pagesFor, BitVec.toNat_udiv, show (4096 : BitVec 64).toNat = 4096 from rfl]
    exact Nat.div_eq_of_lt hsum
  have hfit : firstFit t 0 = some 0 := by
    rw [firstFit, List.find?_range_eq_some]
    exact ⟨rfl, by simp [totalPages], by simp⟩
  rw [memoryAllocate_eq hdomain hsize, hpages, if_neg (by omega), hfit]

end

/-- **Allocation is exact first fit** precisely for the sizes whose rounding does not wrap, in every
allocator state and for every domain. -/
theorem allocation_first_fit_iff (t : PageTable) {domain : DomainId} {size : Reg} (hdomain : domain ≠ 0)
    (hsize : size ≠ 0) : ExactFirstFit t domain size ↔ size ≤ 0xFFFFFFFFFFFFF000 := by
  refine ⟨fun hexact => ?_, exactFirstFit_of_le hdomain hsize⟩
  by_contra hwraps
  have hlt : 18446744073709547520 < size.toNat := by simpa [BitVec.le_def] using hwraps
  have hover : 65535 < pagesNeeded size := by
    unfold pagesNeeded
    omega
  have hok := memoryAllocate_wrapped (t := t) hdomain hwraps
  rw [hexact.overflow hover] at hok
  cases hok

/-- Pages 0 and 2 are taken, and page 1 between them is free again. -/
def fragmentedPool : PageTable :=
  (traceFrom memoryStep [] (memoryInit memoryBoot)
    [.allocate 10 4096 true, .allocate 10 4096 true, .allocate 10 4096 true, .release 0x00010002 10]).2

/-- Two pages do not fit into the gap and are taken behind it. -/
theorem allocation_first_fit_iff_gap : ∃ handle, (memoryAllocate fragmentedPool 20 8192 true).2 = .ok handle ∧
    memoryData (memoryAllocate fragmentedPool 20 8192 true).1 handle 20 = some (3 * 4096) := by
  have hexact : ExactFirstFit fragmentedPool 20 8192 :=
    (allocation_first_fit_iff fragmentedPool (by decide) (by decide)).2 (by decide)
  have hbusy : (fragmentedPool 0).active = true ∧ (fragmentedPool 2).active = true := by decide
  have hbehind : FreeFrom fragmentedPool 3 2 := by
    refine ⟨by decide, fun i hle hlt => ?_⟩
    obtain rfl | rfl : i = 3 ∨ i = 4 := by omega
    all_goals decide
  obtain ⟨start, handle, -, hfree, hleast, hok, -, hdata⟩ := hexact.fits (by decide) ⟨3, hbehind⟩
  have hle : start ≤ 3 := hleast 3 hbehind
  have hne : ∀ page, (fragmentedPool page).active = true → ¬ (start ≤ page ∧ page < start + 2) := by
    rintro page hactive ⟨hlo, hhi⟩
    rw [hfree.2 page hlo hhi] at hactive
    cases hactive
  have hfirst := hne 0 hbusy.1
  have hthird := hne 2 hbusy.2
  obtain rfl : start = 3 := by omega
  exact ⟨handle, hok, hdata⟩

/-- The largest size needs 2^52 pages, and a fresh allocator gives it page 0. -/
theorem largest_size_allocated :
    ¬ ∀ (t₀ t : PageTable) (h : MemoryHistory), Run anyStep memoryStep (memoryInit t₀) h t →
      ∀ (domain : DomainId) (size : Reg), domain ≠ 0 → size ≠ 0 → ExactFirstFit t domain size := by
  intro hall
  have hexact := hall memoryBoot (memoryInit memoryBoot) [] .start 10 0xFFFFFFFFFFFFFFFF (by decide) (by decide)
  have hres := hexact.overflow (by decide)
  rw [show memoryAllocate (memoryInit memoryBoot) 10 0xFFFFFFFFFFFFFFFF true = (_, .ok 0x00010001) from
    Prod.ext rfl (memoryAllocate_wrapped (by decide) (by decide))] at hres
  cases hres

end Lettuce
