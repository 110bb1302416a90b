import LettuceKernel.Exceptions
/-!
# Reset (`kernel/arch/arm64/boot.S`)

| here | there |
| --- | --- |
| `BssBounds`          | `__bss_start` and `__bss_end` (linker.ld:13-20) |
| `bootSymbols`        | boot.S:23-28 |
| `bootDone`, `bootBody` | :30-31, :32 |
| `bootStack`          | :35-36 |
| `boot`               | `_start` (:22) up to the call of `lettuce_arm64_main` |

The kernel's tables are `static` variables without an initial value, and `.bss` is not loaded: that they start as zeros, as the
C code relies on, is the work of this loop.
-/

namespace Lettuce

open A64 ByteMemory

/-- Both ends of `.bss` lie on a page boundary. -/
structure BssBounds (start stop : Word) : Prop where
  startAligned : start.toNat % 4096 = 0
  stopAligned : stop.toNat % 4096 = 0
  ordered : start.toNat ≤ stop.toNat

def bootSymbols (start stop : Word) : List Instr :=
  [.daifSet 0xf, .adrp 0 (pageWord start), .add 0 0 (lo12 start), .adrp 1 (pageWord stop), .add 1 1 (lo12 stop), .mov 2 31]

/-- `cmp x0, x1` and `b.hs`. -/
def bootDone (s : State) : Bool := decide (s.x 1 ≤ s.x 0)

def bootBody : List Instr := [.stpPost 2 2 0 16]

def bootStack (top : Word) : List Instr := [.adrp 0 (pageWord top), .addToSp 0 (lo12 top)]

def boot (start stop top : Word) (fuel : Nat) (s : State) : Option State :=
  ((exec (bootSymbols start stop) s).bind (loop bootDone bootBody fuel)).bind (exec (bootStack top))

/-- All four kinds of asynchronous and debug exceptions are masked (bits 6 to 9 of DAIF), and nothing else. -/
def masked (sys : SysReg → Word) : SysReg → Word := Function.update sys .daif (sys .daif ||| 0x3c0)

section
variable {start stop top : Word} {s t : State}

/-- `k` pairs of words are cleared; the rest is as in `s`. -/
structure Cleared (start stop : Word) (s : State) (k : Nat) (t : State) : Prop where
  next : t.x 0 = start + BitVec.ofNat 64 (16 * k)
  bound : t.x 1 = stop
  zero : t.x 2 = 0
  others : ∀ r, 3 ≤ r → t.x r = s.x r
  sys : t.sys = masked s.sys
  memory : ∀ b, t.memory b = if Covers start (16 * k) b then 0 else s.memory b

theorem exec_bootSymbols (start stop : Word) (s : State) : ∃ t, exec (bootSymbols start stop) s = some t ∧ Cleared start stop s 0 t := by
  refine ⟨_, rfl, ?_, ?_, rfl, fun r hr => ?_, rfl, fun b => ?_⟩
  · have hstart := page_add start
    simp [State.write, State.read, hstart]
  · have hstop := page_add stop
    simp [State.write, State.read, hstop]
  · have hne : r ≠ 0 ∧ r ≠ 1 ∧ r ≠ 2 := by omega
    simp [State.write, hne]
  · exact (if_neg (Nat.not_lt_zero _)).symm

/-- One round clears one pair more. -/
theorem Cleared.round {k : Nat} (h : Cleared start stop s k t) (hfit : 16 * k < 2 ^ 64) :
    ∃ t', exec bootBody t = some t' ∧ Cleared start stop s (k + 1) t' := by
  have hk : (BitVec.ofNat 64 (16 * k)).toNat = 16 * k := ofNat_toNat_small hfit
  refine ⟨_, rfl, ?_, ?_, ?_, fun r hr => ?_, h.sys, fun b => ?_⟩
  · simp only [Function.update_self, h.next]
    rw [BitVec.add_assoc, ← BitVec.ofNat_add, Nat.mul_succ]
  · simp only [Function.update_of_ne (by decide : (1 : Nat) ≠ 0), h.bound]
  · simp only [Function.update_of_ne (by decide : (2 : Nat) ≠ 0), h.zero]
  · simp only [Function.update_of_ne (by omega : r ≠ 0), h.others r hr]
  · have hread : t.read 2 = 0 := h.zero
    have hfirst := covers_add_iff (a := start) (b := b) (k := BitVec.ofNat 64 (16 * k)) (n := 16)
    have hpair := covers_add_iff (a := t.x 0) (b := b) (k := 8#64) (n := 8)
    have h8 : (8#64).toNat = 8 := rfl
    rw [hk, ← h.next] at hfirst
    rw [h8] at hpair
    simp only [hread, storeWord_zero, h.memory b, Nat.mul_succ, hfirst]
    have hsixteen : Covers (t.x 0) 16 b ↔ Covers (t.x 0) 8 b ∨ Covers (t.x 0 + 8#64) 8 b := hpair
    by_cases hnext : Covers (t.x 0 + 8#64) 8 b
    · rw [if_pos hnext, if_pos (Or.inr (hsixteen.2 (Or.inr hnext)))]
    · by_cases hthis : Covers (t.x 0) 8 b
      · rw [if_neg hnext, if_pos hthis, if_pos (Or.inr (hsixteen.2 (Or.inl hthis)))]
      · have hnone : ¬ Covers (t.x 0) 16 b := fun h16 => (hsixteen.1 h16).elim hthis hnext
        simp only [hnext, hthis, hnone, or_false, if_false]

/-- The loop ends after one round for every 16 bytes of the section. -/
theorem loop_clears (hb : BssBounds start stop) (h : Cleared start stop s 0 t) :
    ∃ t', Cleared start stop s ((stop.toNat - start.toNat) / 16) t' ∧
      ∀ fuel, (stop.toNat - start.toNat) / 16 < fuel → loop bootDone bootBody fuel t = some t' := by
  have hstart := hb.startAligned
  have hstop := hb.stopAligned
  have hle := hb.ordered
  have hlt := stop.isLt
  have hnext : ∀ k u, 16 * k ≤ stop.toNat - start.toNat → Cleared start stop s k u → (u.x 0).toNat = start.toNat + 16 * k := by
    intro k u hk hu
    rw [hu.next, BitVec.toNat_add, BitVec.toNat_ofNat]
    omega
  have hround : ∀ u, (∃ k, 16 * k ≤ stop.toNat - start.toNat ∧ Cleared start stop s k u) → bootDone u = false →
      ∃ u', exec bootBody u = some u' ∧ (∃ k, 16 * k ≤ stop.toNat - start.toNat ∧ Cleared start stop s k u') ∧
        (stop.toNat - (u'.x 0).toNat) / 16 < (stop.toNat - (u.x 0).toNat) / 16 := by
    rintro u ⟨k, hk, hu⟩ hdone
    have hu0 := hnext k u hk hu
    have hmore : (u.x 0).toNat < stop.toNat := by
      rw [bootDone, decide_eq_false_iff_not, BitVec.le_def, hu.bound] at hdone
      omega
    obtain ⟨u', hexec, hu'⟩ := hu.round (by omega)
    have hk' : 16 * (k + 1) ≤ stop.toNat - start.toNat := by omega
    refine ⟨u', hexec, ⟨k + 1, hk', hu'⟩, ?_⟩
    rw [hnext (k + 1) u' hk' hu', hu0]
    omega
  obtain ⟨t', ⟨k, hk, ht'⟩, hdone, hloop⟩ := loop_spec _ hround t ⟨0, Nat.zero_le _, h⟩
  rw [hnext 0 t (Nat.zero_le _) h] at hloop
  refine ⟨t', ?_, hloop⟩
  have hend := hnext k t' hk ht'
  rw [bootDone, decide_eq_true_eq, BitVec.le_def, ht'.bound] at hdone
  have hall : (stop.toNat - start.toNat) / 16 = k := by omega
  rwa [hall]

/-- **Reset hands the C code a `.bss` of zeros**: from any state of registers and memory the loop ends, exactly the bytes from
`__bss_start` to `__bss_end` are zero, everything else in memory is as the loader left it, the stack pointer is the top of the
boot stack, and interrupts are masked. -/
theorem boot_clears_bss (hb : BssBounds start stop) (top : Word) (s : State) : ∃ s',
    (∀ fuel, (stop.toNat - start.toNat) / 16 < fuel → boot start stop top fuel s = some s') ∧
    (∀ b, s'.memory b = if start ≤ b ∧ b < stop then 0 else s.memory b) ∧
    s'.sp = top ∧ s'.sys = masked s.sys ∧ ∀ r, 3 ≤ r → s'.x r = s.x r := by
  obtain ⟨t, hsymbols, ht⟩ := exec_bootSymbols start stop s
  obtain ⟨t', ht', hloop⟩ := loop_clears hb ht
  refine ⟨{ t' with x := Function.update t'.x 0 (pageWord top), sp := top }, fun fuel hfuel => ?_, fun b => ?_, rfl, ht'.sys,
    fun r hr => ?_⟩
  · have htop := page_add top
    rw [boot, hsymbols, Option.bind_some, hloop fuel hfuel, Option.bind_some]
    simp [bootStack, exec, step, State.write, State.read, htop]
  · have hstart := hb.startAligned
    have hstop := hb.stopAligned
    have hle := hb.ordered
    have hrange : Covers start (16 * ((stop.toNat - start.toNat) / 16)) b ↔ start ≤ b ∧ b < stop := by
      have hlt := b.isLt
      rw [Covers, BitVec.toNat_sub, BitVec.le_def, BitVec.lt_def]
      omega
    simp only [ht'.memory b, hrange]
  · simp only [Function.update_of_ne (by omega : r ≠ 0), ht'.others r hr]

end

/-- A kernel of three pages of `.bss`. -/
theorem boot_clears_bss_pages : ∃ s',
    boot 0x40090000 0x40093000 0x40093000 1000 { x := fun _ => 7, sp := 0, sys := fun _ => 0, memory := fun _ => 0xff } = some s' ∧
      s'.memory 0x40090123 = 0 ∧ s'.memory 0x40093000 = 0xff ∧ s'.sys .daif = 0x3c0 := by
  have hb : BssBounds 0x40090000 0x40093000 := ⟨by decide, by decide, by decide⟩
  obtain ⟨s', hboot, hmemory, -, hsys, -⟩ := boot_clears_bss hb 0x40093000
    { x := fun _ => 7, sp := 0, sys := fun _ => 0, memory := fun _ => 0xff }
  exact ⟨s', hboot 1000 (by decide), (hmemory _).trans (if_pos (by decide)), (hmemory _).trans (if_neg (by decide)),
    congrFun hsys .daif⟩

end Lettuce
