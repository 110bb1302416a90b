import LettuceKernel.Gates
/-!
# Domains and the active address space (`kernel/arch/arm64/mmu.c`)

| here | there |
| --- | --- |
| `Arch`               | the link-time addresses of the three root tables and the PAC instructions (pac.S) |
| `Arch.domainLookup`  | `arch_domain_lookup` (mmu.c:240) on the `arch_domains` table (:171) |
| `Arch.domainTtbr0Val`, `domainStackTop` | `lettuce_arch_domain_ttbr0_val` (:251), `_stack_top` (:229) |
| `Mmu`                | `current_domain` (:215) and the TTBR0 register |
| `Arch.mmuInit`       | the state `lettuce_mmu_init` (:497) leaves: domain A |
| `Arch.mmuEnter`, `mmuLeave`, `mmuSetCurrentDomain` | :616, :631, :641 |
| `Arch.mmuProtection` | the ARM64 build of protection.c (:22-36) |

The current domain and the register are written by different code: `mmuEnter` writes both or
neither, `mmuSetCurrentDomain` only the variable. `Mmu.Consistent` says that they agree.
-/

namespace Lettuce

/-- What the hardware and the linker decide. -/
structure Arch where
  l1Root : Fin 3 → Reg
  pacSign : Reg → Reg → Reg
  pacAuth : Reg → Reg → Reg

def domainA : DomainId := 100
def domainB : DomainId := 200
def domainC : DomainId := 300

/-- A domain the architecture has tables for. -/
def KnownDomain (d : DomainId) : Prop := d = domainA ∨ d = domainB ∨ d = domainC

instance (d : DomainId) : Decidable (KnownDomain d) := inferInstanceAs (Decidable (_ ∨ _))

/-- `LettuceArchDomain` (mmu.c:154), the field the switch reads. -/
structure ArchDomain where
  ttbr0Val : Reg

/-- mmu.c:585-586. -/
def archDomain (l1Root : Reg) (asid : BitVec 16) : ArchDomain :=
  { ttbr0Val := (asid.setWidth 64 <<< 48) ||| (l1Root &&& 0x0000FFFFFFFFF000#64) }

def domainStackTop (domain : DomainId) : Reg :=
  if domain = domainA then 0x41002000
  else if domain = domainB then 0x41102000
  else if domain = domainC then 0x41182000
  else 0

@[ext]
structure Mmu where
  currentDomain : DomainId
  ttbr0 : Reg
deriving DecidableEq, Repr

def mmuSetCurrentDomain (domain : DomainId) (s : Mmu) : Mmu := { s with currentDomain := domain }

namespace Arch

variable (arch : Arch)

def domainLookup (id : DomainId) : Option ArchDomain :=
  if id = domainA then some (archDomain (arch.l1Root 0) 1)
  else if id = domainB then some (archDomain (arch.l1Root 1) 2)
  else if id = domainC then some (archDomain (arch.l1Root 2) 3)
  else none

/-- The positions of the three domains in `arch_domains`. -/
def slotA : Fin 3 := 0
def slotB : Fin 3 := 1
def slotC : Fin 3 := 2

def domainTtbr0Val (domain : DomainId) : Reg :=
  match arch.domainLookup domain with
  | some archDom => archDom.ttbr0Val
  | none => 0

def mmuInit : Mmu := { currentDomain := domainA, ttbr0 := arch.domainTtbr0Val domainA }

/-- The previous domain it returns is `s.currentDomain`. -/
def mmuEnter (domain : DomainId) (s : Mmu) : Mmu :=
  if domain = s.currentDomain ∨ domain = 0 then s
  else match arch.domainLookup domain with
    | none => s
    | some target => { currentDomain := domain, ttbr0 := target.ttbr0Val }

def mmuLeave (previousDomain : DomainId) (s : Mmu) : Mmu := arch.mmuEnter previousDomain s

def mmuProtection : Protection Mmu where
  current := Mmu.currentDomain
  enter := arch.mmuEnter
  leave := arch.mmuLeave

end Arch

/-- The register holds the value precomputed for the current domain. -/
def Mmu.Consistent (arch : Arch) (s : Mmu) : Prop := s.ttbr0 = arch.domainTtbr0Val s.currentDomain

section
variable {arch : Arch} {s : Mmu} {d : DomainId}

theorem domainLookup_isSome (arch : Arch) {d : DomainId} : (arch.domainLookup d).isSome ↔ KnownDomain d := by
  unfold Arch.domainLookup KnownDomain
  by_cases ha : d = domainA
  · simp [ha]
  · by_cases hb : d = domainB
    · simp [hb, show domainB ≠ domainA by decide]
    · by_cases hc : d = domainC
      · simp [hc, show domainC ≠ domainA by decide, show domainC ≠ domainB by decide]
      · simp [ha, hb, hc]

theorem mmuEnter_unknown (h : ¬ KnownDomain d) : arch.mmuEnter d s = s := by
  unfold Arch.mmuEnter
  split
  · rfl
  · rw [Option.not_isSome_iff_eq_none.1 (mt (domainLookup_isSome arch).1 h)]

/-- Entering a domain of the table, seen from a consistent state: the skipped write would have
changed nothing. -/
theorem mmuEnter_known (hs : s.Consistent arch) (h : KnownDomain d) :
    arch.mmuEnter d s = { currentDomain := d, ttbr0 := arch.domainTtbr0Val d } := by
  obtain ⟨a, ha⟩ := Option.isSome_iff_exists.1 ((domainLookup_isSome arch).2 h)
  unfold Arch.mmuEnter
  split
  · rename_i hskip
    have hd : d = s.currentDomain := by
      rcases hskip with hd | rfl
      · exact hd
      · exact absurd h (by decide)
    subst hd
    rw [← show s.ttbr0 = _ from hs]
  · simp [Arch.domainTtbr0Val, ha]

theorem mmuInit_consistent : arch.mmuInit.Consistent arch := rfl

theorem mmuEnter_consistent (hs : s.Consistent arch) : (arch.mmuEnter d s).Consistent arch := by
  by_cases h : KnownDomain d
  · rw [mmuEnter_known hs h]; exact rfl
  · rw [mmuEnter_unknown h]; exact hs

theorem mmuEnter_currentDomain (h : KnownDomain s.currentDomain) : KnownDomain (arch.mmuEnter d s).currentDomain := by
  unfold Arch.mmuEnter
  split
  · exact h
  · split
    · exact h
    · rename_i target ht
      exact (domainLookup_isSome arch).1 (Option.isSome_iff_exists.2 ⟨target, ht⟩)

end

end Lettuce
