import LettuceKernel.Capability
import LettuceKernel.Lib.Run
import LettuceKernel.Lib.SlotHandle
/-!
# The page-pool allocator (`memory/allocator/fixed.c`)

| here | there |
| --- | --- |
| `Allocation`      | `Allocation` (fixed.c:24), without the reserved byte |
| `PageTable`       | `allocations` (fixed.c:38), a function of the page |
| `memoryInit`      | `lettuce_memory_init` (fixed.c:50) |
| `pagesFor`, `freeSpan`, `firstFit`, `fillSpan` | the size rounding and the loops of `lettuce_memory_allocate` |
| `memoryAllocate`  | `lettuce_memory_allocate` (fixed.c:61) |
| `memoryHead`      | the checks `lettuce_memory_release` and `lettuce_memory_data` both make (fixed.c:110-127, :146-162) |
| `memoryRelease`, `memoryData` | fixed.c:108, :144 |

The contents of the pool are no concern of the allocator: `memoryData` returns the offset of
the block in it. Sizes are 64-bit words, and `size + 4095` wraps: a size above
`2^64 - 4096` needs 0 pages and is "allocated" at page 0 without marking it.
-/

namespace Lettuce

open Runs

abbrev MemoryHandle := BitVec 32

/-- `LETTUCE_MEMORY_POOL_SIZE / LETTUCE_MEMORY_PAGE_SIZE`. -/
def totalPages : Nat := 64

/-- What each page of a block records about the whole block. -/
structure Allocation where
  firstPage : BitVec 16
  pageCount : BitVec 16
  domain : DomainId
  generation : BitVec 16
  active : Bool
deriving DecidableEq, Repr

abbrev PageTable := Nat → Allocation

/-- `(Allocation){.generation = generation}`. -/
def Allocation.unused (generation : BitVec 16) : Allocation :=
  { firstPage := 0, pageCount := 0, domain := 0, generation, active := false }

/-- The static storage before `lettuce_memory_init` runs. -/
def memoryBoot : PageTable := fun _ => .unused 0

def memoryInit (t : PageTable) : PageTable := fun i =>
  if i < totalPages then .unused (SlotHandle.issuedGeneration (t i).generation) else t i

/-- `(size + LETTUCE_MEMORY_PAGE_SIZE - 1u) / LETTUCE_MEMORY_PAGE_SIZE` in `size_t`. -/
def pagesFor (size : Reg) : Nat := ((size + 4096 - 1) / 4096).toNat

def freeSpan (t : PageTable) (start pages : Nat) : Bool :=
  (List.range pages).all fun page => !(t (start + page)).active

/-- The first `start` with `start + pages <= total_pages` and a free span. -/
def firstFit (t : PageTable) (pages : Nat) : Option Nat :=
  (List.range (totalPages + 1 - pages)).find? fun start => freeSpan t start pages

/-- `for (page = 0; page < count; ++page) allocations[start + page] = a;` -/
def fillSpan (t : PageTable) (start count : Nat) (a : Allocation) : PageTable :=
  (List.range count).foldl (fun t page => Function.update t (start + page) a) t

/-- `hasHandle` says that the out pointer is not NULL. -/
def memoryAllocate (t : PageTable) (domain : DomainId) (size : Reg) (hasHandle : Bool) :
    PageTable × Except Status MemoryHandle :=
  if domain = 0 ∨ size = 0 ∨ hasHandle = false then (t, .error .invalidArgument)
  else if pagesFor size > 65535 then (t, .error .overflow)
  else match firstFit t (pagesFor size) with
    | none => (t, .error .unavailable)
    | some start =>
      let generation := SlotHandle.issuedGeneration (t start).generation
      let alloc : Allocation :=
        { firstPage := BitVec.ofNat 16 start, pageCount := BitVec.ofNat 16 (pagesFor size), domain, generation,
          active := true }
      (fillSpan t start (pagesFor size) alloc, .ok (SlotHandle.make start generation))

/-- The page a handle names, if it heads an active block of `domain` with the handle's
generation. -/
def memoryHead (t : PageTable) (handle : MemoryHandle) (domain : DomainId) : Except Status Nat :=
  if domain = 0 then .error .invalidArgument
  else match SlotHandle.decode totalPages handle with
    | none => .error .invalidArgument
    | some (start, generation) =>
      if !(t start).active || (t start).generation != generation then .error .notFound
      else if (t start).firstPage.toNat ≠ start then .error .notFound
      else if (t start).domain ≠ domain then .error .denied
      else .ok start

def memoryRelease (t : PageTable) (handle : MemoryHandle) (domain : DomainId) : PageTable × Status :=
  match memoryHead t handle domain with
  | .error status => (t, status)
  | .ok start =>
    (fillSpan t start (t start).pageCount.toNat (.unused (nextGeneration (t start).generation)), .ok)

/-- The offset into `memory_pool`; `none` is NULL. -/
def memoryData (t : PageTable) (handle : MemoryHandle) (domain : DomainId) : Option Nat :=
  match memoryHead t handle domain with
  | .error _ => none
  | .ok start => some (start * 4096)

inductive MemoryCall where
  | allocate (domain : DomainId) (size : Reg) (hasHandle : Bool)
  | release (handle : MemoryHandle) (domain : DomainId)
  | data (handle : MemoryHandle) (domain : DomainId)
deriving DecidableEq, Repr

def memoryStep (t : PageTable) : MemoryCall → PageTable
  | .allocate domain size hasHandle => (memoryAllocate t domain size hasHandle).1
  | .release handle domain => (memoryRelease t handle domain).1
  | .data .. => t

abbrev MemoryHistory := List (PageTable × MemoryCall)

/-! ## The loops -/

section
variable {t : PageTable}

theorem fillSpan_apply (t : PageTable) (start count : Nat) (a : Allocation) (i : Nat) :
    fillSpan t start count a i = if start ≤ i ∧ i < start + count then a else t i := by
  induction count with
  | zero =>
    rw [if_neg (by omega)]
    rfl
  | succ count ih =>
    have hlast : fillSpan t start (count + 1) a = Function.update (fillSpan t start count a) (start + count) a := by
      simp only [fillSpan, List.range_succ, List.foldl_append, List.foldl_cons, List.foldl_nil]
    rw [hlast]
    by_cases hi : i = start + count
    · subst hi
      rw [Function.update_self, if_pos (by omega)]
    · rw [Function.update_of_ne hi, ih]
      congr 1
      exact propext (by omega)

theorem freeSpan_eq_true {start pages : Nat} :
    freeSpan t start pages = true ↔ ∀ i, start ≤ i → i < start + pages → (t i).active = false := by
  simp only [freeSpan, List.all_eq_true, List.mem_range, Bool.not_eq_true']
  constructor
  · intro h i hle hlt
    have hfree := h (i - start) (by omega)
    rwa [Nat.add_sub_cancel' hle] at hfree
  · intro h page hpage
    exact h (start + page) (by omega) (by omega)

/-- The span that is taken is free and lies in the pool. -/
theorem firstFit_eq_some {pages start : Nat} (h : firstFit t pages = some start) :
    start + pages ≤ totalPages ∧ ∀ i, start ≤ i → i < start + pages → (t i).active = false := by
  have hmem := List.mem_of_find?_eq_some h
  have hfree := List.find?_some h
  rw [List.mem_range] at hmem
  exact ⟨by omega, freeSpan_eq_true.1 hfree⟩

end

/-! ## One equation per call -/

/-- The rounding is exact as long as the sum does not wrap. -/
theorem pagesFor_eq {size : Reg} (h : size ≤ 0xFFFFFFFFFFFFF000) : pagesFor size = (size.toNat + 4095) / 4096 := by
  have hle : size.toNat ≤ 18446744073709547520 := by simpa [BitVec.le_def] using h
  have hsum : (size + 4096 - 1).toNat = size.toNat + 4095 := by
    rw [BitVec.toNat_sub, BitVec.toNat_add, show (4096 : BitVec 64).toNat = 4096 from rfl,
      show (1 : BitVec 64).toNat = 1 from rfl]
    omega
  rw [pagesFor, BitVec.toNat_udiv, hsum, show (4096 : BitVec 64).toNat = 4096 from rfl]

/-- Page `f` heads an active block. -/
def Heads (t : PageTable) (f : Nat) : Prop :=
  f < totalPages ∧ (t f).active = true ∧ (t f).firstPage.toNat = f

section
variable {t : PageTable} {domain : DomainId} {size : Reg} {hasHandle : Bool} {handle : MemoryHandle}

/-- What a successful allocation found and wrote. -/
theorem memoryAllocate_ok (h : (memoryAllocate t domain size hasHandle).2 = .ok handle) :
    ∃ start, firstFit t (pagesFor size) = some start ∧ domain ≠ 0 ∧ size ≠ 0 ∧
      handle = SlotHandle.make start (SlotHandle.issuedGeneration (t start).generation) ∧
      (memoryAllocate t domain size hasHandle).1 = fillSpan t start (pagesFor size)
        { firstPage := BitVec.ofNat 16 start, pageCount := BitVec.ofNat 16 (pagesFor size), domain,
          generation := SlotHandle.issuedGeneration (t start).generation, active := true } := by
  unfold memoryAllocate at h ⊢
  split at h
  · cases h
  · rename_i hargs
    rw [if_neg hargs]
    simp only [not_or] at hargs
    split at h
    · cases h
    · rename_i hpages
      rw [if_neg hpages]
      split at h
      · cases h
      · rename_i start hfit
        rw [hfit]
        cases h
        exact ⟨start, rfl, hargs.1, hargs.2.1, rfl, rfl⟩

theorem memoryAllocate_error {status : Status} (h : (memoryAllocate t domain size hasHandle).2 = .error status) :
    (memoryAllocate t domain size hasHandle).1 = t := by
  unfold memoryAllocate at h ⊢
  split at h
  · rename_i hargs
    rw [if_pos hargs]
  · rename_i hargs
    rw [if_neg hargs]
    split at h
    · rename_i hpages
      rw [if_pos hpages]
    · rename_i hpages
      rw [if_neg hpages]
      split at h
      · rfl
      · cases h

/-- The shared checks accept exactly the handle of a head, for its domain. -/
theorem memoryHead_eq_ok {f : Nat} :
    memoryHead t handle domain = .ok f ↔
      Heads t f ∧ domain ≠ 0 ∧ handle = SlotHandle.make f (t f).generation ∧ domain = (t f).domain := by
  unfold memoryHead
  constructor
  · intro h
    split at h
    · cases h
    · rename_i hdomain
      split at h
      · cases h
      · rename_i start generation hdecode
        obtain ⟨hstart, rfl⟩ := (SlotHandle.decode_eq_some (by decide)).1 hdecode
        split at h
        · cases h
        · rename_i hlive
          simp only [Bool.not_eq_true, Bool.or_eq_false_iff, Bool.not_eq_false', bne_eq_false_iff_eq] at hlive
          split at h
          · cases h
          · rename_i hhead
            split at h
            · cases h
            · rename_i howner
              cases h
              exact ⟨⟨hstart, hlive.1, not_not.1 hhead⟩, hdomain, by rw [hlive.2], (not_not.1 howner).symm⟩
  · rintro ⟨⟨hlt, hact, hhead⟩, hdomain, rfl, howner⟩
    rw [if_neg hdomain, (SlotHandle.decode_eq_some (by decide)).2 ⟨hlt, rfl⟩]
    simp [hact, hhead, howner]

theorem memoryRelease_ok {f : Nat} (h : memoryHead t handle domain = .ok f) :
    memoryRelease t handle domain =
      (fillSpan t f (t f).pageCount.toNat (.unused (nextGeneration (t f).generation)), .ok) := by
  simp only [memoryRelease, h]

/-- A release that does not answer OK has changed nothing. -/
theorem memoryRelease_cases (t : PageTable) (handle : MemoryHandle) (domain : DomainId) :
    ((memoryRelease t handle domain).2 ≠ .ok ∧ (memoryRelease t handle domain).1 = t) ∨
      ((memoryRelease t handle domain).2 = .ok ∧ ∃ f, memoryHead t handle domain = .ok f) := by
  cases hh : memoryHead t handle domain with
  | ok f => exact Or.inr ⟨by rw [memoryRelease_ok hh], f, rfl⟩
  | error status =>
    left
    refine ⟨?_, by simp only [memoryRelease, hh]⟩
    simp only [memoryRelease, hh]
    -- no check answers OK
    unfold memoryHead at hh
    repeat' split at hh
    all_goals
      cases hh
      try decide

end

end Lettuce
