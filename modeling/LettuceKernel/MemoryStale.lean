import LettuceKernel.Lib.Generations
import LettuceKernel.MemoryBlocks
/-!
# Stale memory handles

"Reused slots advance generation so stale handles fail" (docs/memory.md). The generation is
kept per page, `release` advances it, but `allocate` copies the generation of the head page
over every page of the span (fixed.c:99). A page that had been released more often than the
head of a later span goes back to a generation whose handles are out already; once that span
is released and split up again, `allocate` returns one of them a second time.

A size above `2^64 - 4096` is worse still: it wraps to 0 pages, so `allocate` marks no page and
returns the handle that page 0 has, or gets next.

Generations wrap, and `lettuce_memory_init` keeps those it finds. So how far a page has come is
counted round the circle from the generation it had after init (`generationSteps`), which is
another one for each page. `KeepsGenerations` excludes the calls that take a page back on its
own circle. With it the table is a lawful table with generations (`Generations.Table`), and no
handle comes back.
-/

namespace Lettuce

open Runs

/-- The call returns OK with the handle `x`. -/
def Allocates (t : PageTable) (x : MemoryHandle) : MemoryCall → Prop
  | .allocate domain size hasHandle => (memoryAllocate t domain size hasHandle).2 = .ok x
  | _ => False

/-- The call is made with `x`, for whatever domain, and succeeds. -/
def AcceptsMemory (t : PageTable) (x : MemoryHandle) : MemoryCall → Prop
  | .release y domain => y = x ∧ (memoryRelease t y domain).2 = .ok
  | .data y domain => y = x ∧ memoryData t y domain ≠ none
  | .allocate .. => False

/-- The lowest span of free pages, which is the one `allocate` takes. -/
def FirstFree (t : PageTable) (start pages : Nat) : Prop :=
  start + pages ≤ totalPages ∧ freeSpan t start pages = true ∧ ∀ s, s < start → freeSpan t s pages = false

/-- How often `nextGeneration` is applied from `a` to `b`: 1 comes after 0xFFFF. -/
def generationSteps (a b : BitVec 16) : Nat := (b.toNat + 65535 - a.toNat) % 65535

/-- For an allocation: it is refused for its arguments, or the size does not wrap and no page of the
span to be taken is ahead of its head, counted from the generation the page has in `t₀`. For a
release: no page of the block comes round to the generation it has in `t₀`. -/
def KeepsGenerations (t₀ t : PageTable) : MemoryCall → Prop
  | .allocate domain size hasHandle => domain ≠ 0 → hasHandle = true → size ≤ 0xFFFFFFFFFFFFF000 ∧
    ∀ start, FirstFree t start (pagesFor size) → ∀ i, start ≤ i → i < start + pagesFor size →
      generationSteps (t₀ i).generation (t i).generation ≤ generationSteps (t₀ i).generation (t start).generation
  | .release x domain => ∀ f, memoryHead t x domain = .ok f → ∀ i, InSpan (t f) i →
    nextGeneration (t f).generation ≠ (t₀ i).generation
  | .data .. => True

/-! ## The loops again -/

theorem pagesFor_pos {size : Reg} (h0 : size ≠ 0) (h : size ≤ 0xFFFFFFFFFFFFF000) : 0 < pagesFor size := by
  have hpos : size.toNat ≠ 0 := fun he => h0 (BitVec.eq_of_toNat_eq (by simpa using he))
  rw [pagesFor_eq h]
  omega

theorem firstFit_firstFree {t : PageTable} {pages start : Nat} (h : firstFit t pages = some start) :
    FirstFree t start pages := by
  have hfit := firstFit_eq_some h
  refine ⟨hfit.1, freeSpan_eq_true.2 hfit.2, fun s hs => ?_⟩
  rw [firstFit, List.find?_range_eq_some] at h
  simpa using h.2.2 s hs

/-! ## The circle of generations -/

/-- A release is one step ahead, unless it ends where the count began. -/
theorem generationSteps_next {a g : BitVec 16} (ha : a ≠ 0) (hg : g ≠ 0) (hne : nextGeneration g ≠ a) :
    generationSteps a (nextGeneration g) = generationSteps a g + 1 := by
  have hapos : a.toNat ≠ 0 := fun he => ha (BitVec.eq_of_toNat_eq (by simpa using he))
  have hgpos : g.toNat ≠ 0 := fun he => hg (BitVec.eq_of_toNat_eq (by simpa using he))
  have hnat : (nextGeneration g).toNat ≠ a.toNat := fun he => hne (BitVec.eq_of_toNat_eq he)
  have hlt := a.isLt
  have hglt := g.isLt
  unfold generationSteps
  by_cases hlast : g = 0xFFFF
  · subst hlast
    have hone : (nextGeneration 0xFFFF).toNat = 1 := rfl
    rw [hone] at hnat ⊢
    rw [show (0xFFFF : BitVec 16).toNat = 65535 from rfl]
    omega
  · have hglast : g.toNat ≠ 65535 := fun he => hlast (BitVec.eq_of_toNat_eq he)
    rw [nextGeneration_toNat hlast] at hnat ⊢
    obtain ⟨x, hx⟩ : ∃ x, x = g.toNat + 65535 - a.toNat := ⟨_, rfl⟩
    rw [show g.toNat + 1 + 65535 - a.toNat = x + 1 by omega, ← hx]
    -- only `x + 1 = 65535` would come round, and there `g + 1` is `a`
    have hround : x + 1 ≠ 65535 := by omega
    omega

/-! ## The page table as a table with generations -/

/-- No page has the generation 0, with which no handle is issued. -/
def GenerationsIssued (t : PageTable) : Prop := ∀ i, i < totalPages → (t i).generation ≠ 0

section
variable {t₀ t : PageTable}

end

/-! ## Every run -/

section
variable {t₀ t : PageTable} {h : MemoryHistory}

/-- Where the generation of a page comes from. -/
theorem memoryStep_generation (t : PageTable) (c : MemoryCall) (i : Nat) :
    (memoryStep t c i).generation = (t i).generation ∨
    (∃ start, start < totalPages ∧ (memoryStep t c i).generation = SlotHandle.issuedGeneration (t start).generation) ∨
    (∃ x domain f, c = .release x domain ∧ memoryHead t x domain = .ok f ∧
      (memoryStep t c i).generation = nextGeneration (t f).generation) := by
  cases c with
  | data x domain => exact Or.inl rfl
  | allocate domain size hasHandle =>
    cases hres : (memoryAllocate t domain size hasHandle).2 with
    | error status => exact Or.inl (by rw [memoryStep, memoryAllocate_error hres])
    | ok handle =>
      obtain ⟨start, hfit, -, -, -, heq⟩ := memoryAllocate_ok hres
      have hpool := (firstFit_eq_some hfit).1
      rw [memoryStep, heq, fillSpan_apply]
      split
      · exact Or.inr (Or.inl ⟨start, by omega, rfl⟩)
      · exact Or.inl rfl
  | release x domain =>
    rcases memoryRelease_cases t x domain with ⟨-, heq⟩ | ⟨-, f, hf⟩
    · exact Or.inl (by rw [memoryStep, heq])
    · have hpage : memoryStep t (.release x domain) i = fillSpan t f (t f).pageCount.toNat
          (.unused (nextGeneration (t f).generation)) i := by rw [memoryStep, memoryRelease_ok hf]
      rw [hpage, fillSpan_apply]
      split
      · exact Or.inr (Or.inr ⟨x, domain, f, rfl, hf, rfl⟩)
      · exact Or.inl rfl

theorem GenerationsIssued.init (t₀ : PageTable) : GenerationsIssued (memoryInit t₀) := fun i hi => by
  rw [memoryInit, if_pos hi]
  exact SlotHandle.issuedGeneration_ne_zero _

theorem GenerationsIssued.step (hgen : GenerationsIssued t) (c : MemoryCall) :
    GenerationsIssued (memoryStep t c) := by
  intro i hi
  rcases memoryStep_generation t c i with heq | ⟨start, -, heq⟩ | ⟨x, domain, f, -, -, heq⟩
  · rw [heq]
    exact hgen i hi
  · rw [heq]
    exact SlotHandle.issuedGeneration_ne_zero _
  · rw [heq]
    exact nextGeneration_ne_zero _

/-- What the steps need of the table, in every run. -/
theorem memory_run {ok : PageTable → MemoryCall → Prop} (r : Run ok memoryStep (memoryInit t₀) h t) :
    GenerationsIssued t ∧ Blocks t :=
  r.invariant (I := fun t => GenerationsIssued t ∧ Blocks t) ⟨GenerationsIssued.init t₀, memoryInit_blocks t₀⟩
    fun _ c _ hi => ⟨hi.1.step c, hi.2.step c⟩

/-- The handle an allocation returns. -/
theorem Allocates.slot {c : MemoryCall} {x : MemoryHandle} (hx : Allocates t x c) :
    ∃ i, ∃ b : BitVec 16, i < 65535 ∧ b ≠ 0 ∧ x = SlotHandle.make i b := by
  cases c with
  | allocate domain size hasHandle =>
    obtain ⟨start, hfit, -, -, hhandle, -⟩ := memoryAllocate_ok hx
    have hpool := (firstFit_eq_some hfit).1
    have hlt : start < 65535 := by unfold totalPages at hpool; omega
    exact ⟨start, _, hlt, SlotHandle.issuedGeneration_ne_zero _, hhandle⟩
  | _ => exact hx.elim

/-- What a call accepts is the handle of a head, with the generation the head has now. -/
theorem AcceptsMemory.generation {c : MemoryCall} {x : MemoryHandle} (hx : AcceptsMemory t x c) :
    ∃ f, f < totalPages ∧ x = SlotHandle.make f (t f).generation := by
  have hhead : ∃ domain f, memoryHead t x domain = .ok f := by
    cases c with
    | allocate domain size hasHandle => exact hx.elim
    | release y domain =>
      obtain ⟨rfl, hok⟩ := hx
      rcases memoryRelease_cases t y domain with ⟨hne, -⟩ | ⟨-, f, hf⟩
      · exact absurd hok hne
      · exact ⟨domain, f, hf⟩
    | data y domain =>
      obtain ⟨rfl, hsome⟩ := hx
      cases hf : memoryHead t y domain with
      | ok f => exact ⟨domain, f, hf⟩
      | error status => exact absurd (by rw [memoryData, hf]) hsome
  obtain ⟨domain, f, hf⟩ := hhead
  obtain ⟨hheads, -, hhandle, -⟩ := memoryHead_eq_ok.1 hf
  exact ⟨f, hheads.1, hhandle⟩

end

/-- How many releases of the run succeeded. -/
def releaseCount : MemoryHistory → Nat
  | [] => 0
  | (t, .release x domain) :: h => releaseCount h + if (memoryRelease t x domain).2 = .ok then 1 else 0
  | _ :: h => releaseCount h

theorem releaseCount_cons (t : PageTable) (c : MemoryCall) (h : MemoryHistory) :
    releaseCount h ≤ releaseCount ((t, c) :: h) := by
  cases c with
  | release x domain => exact Nat.le_add_right _ _
  | _ => exact Nat.le_refl _

/-- The releases that succeed count. -/
theorem releaseCount_release {t : PageTable} {x : MemoryHandle} {domain : DomainId} {f : Nat}
    (hf : memoryHead t x domain = .ok f) (h : MemoryHistory) :
    releaseCount ((t, .release x domain) :: h) = releaseCount h + 1 := by
  rw [releaseCount, memoryRelease_ok hf, if_pos rfl]

section
variable {t₀ t : PageTable} {h : MemoryHistory} {g : BitVec 16}

/-- Copies go from page to page, so only releases lead away from a common generation. -/
theorem generationSteps_le_releaseCount (hall : ∀ i, i < totalPages → (memoryInit t₀ i).generation = g)
    (r : Run anyStep memoryStep (memoryInit t₀) h t) :
    ∀ i, i < totalPages → generationSteps g (t i).generation ≤ releaseCount h := by
  have hg : g ≠ 0 := hall 0 (by decide) ▸ GenerationsIssued.init t₀ 0 (by decide)
  induction r with
  | start =>
    intro i hi
    rw [hall i hi, generationSteps, show g.toNat + 65535 - g.toNat = 65535 by omega]
    exact Nat.zero_le _
  | @next h t r c _ ih =>
    have hgen := (memory_run r).1
    have hcount := releaseCount_cons t c h
    intro i hi
    rcases memoryStep_generation t c i with heq | ⟨start, hstart, heq⟩ | ⟨x, domain, f, rfl, hf, heq⟩
    · rw [heq]
      exact Nat.le_trans (ih i hi) hcount
    · rw [heq, SlotHandle.issuedGeneration_of_ne (hgen start hstart)]
      exact Nat.le_trans (ih start hstart) hcount
    · have hpage := (memoryHead_eq_ok.1 hf).1.1
      have hle := ih f hpage
      rw [heq, releaseCount_release hf]
      by_cases hround : nextGeneration (t f).generation = g
      · rw [hround, generationSteps, show g.toNat + 65535 - g.toNat = 65535 by omega]
        exact Nat.zero_le _
      · rw [generationSteps_next hg (hgen f hpage) hround]
        omega

/-- After power-on, and wherever all pages start at one generation, fewer than 65535 releases take
no page round: there the condition is about allocations alone. -/
theorem release_keeps_generations (hall : ∀ i, i < totalPages → (memoryInit t₀ i).generation = g)
    (r : Run anyStep memoryStep (memoryInit t₀) h t) {x : MemoryHandle} {domain : DomainId}
    (hc : releaseCount ((t, .release x domain) :: h) < 65535) :
    KeepsGenerations (memoryInit t₀) t (.release x domain) := by
  intro f hf i hi hround
  have hgen := (memory_run r).1
  have hpage := (memoryHead_eq_ok.1 hf).1.1
  have hlast : i < totalPages := Nat.lt_of_lt_of_le hi.2 ((memory_run r).2 f hpage (memoryHead_eq_ok.1 hf).1.2.1).pool
  have hle := generationSteps_le_releaseCount hall r f hpage
  rw [releaseCount_release hf] at hc
  rw [hall i hlast] at hround
  rw [← hround] at hle
  -- the generation before `g` is 65534 steps away from it
  have hfar : generationSteps (nextGeneration (t f).generation) (t f).generation = 65534 := by
    have hpos : (t f).generation.toNat ≠ 0 := fun he => hgen f hpage (BitVec.eq_of_toNat_eq (by simpa using he))
    have hlt := (t f).generation.isLt
    unfold generationSteps
    by_cases hwrap : (t f).generation = 0xFFFF
    · rw [hwrap]
      decide
    · rw [nextGeneration_toNat hwrap]
      have hne : (t f).generation.toNat ≠ 65535 := fun he => hwrap (BitVec.eq_of_toNat_eq he)
      omega
  omega

end

end Lettuce
