import LettuceKernel.Lib.A64
import LettuceKernel.Lib.Run
/-!
# Switching kernel threads (`kernel/arch/arm64/context_switch.S`)

| here | there |
| --- | --- |
| `saveContext`, `restoreContext` | context_switch.S:34-43, :49-58 |
| `contextSwitch`      | `lettuce_arch_context_switch` (:30), up to the RET |

A context is the `LettuceTaskContext` of task.h:45, of which the routine uses `x[19]`..`x[30]` and the word behind them. Kernel
threads take turns on one processor: the current one runs as it likes, but for the contexts of the others, and calls the
routine with its own context and that of the next. The call returns when another thread calls back.
-/

namespace Lettuce

open A64 Runs

/-- context_switch.S:34-43. -/
def saveContext : List Instr :=
  [.stp 19 20 (.x 0) 152, .stp 21 22 (.x 0) 168, .stp 23 24 (.x 0) 184, .stp 25 26 (.x 0) 200, .stp 27 28 (.x 0) 216,
    .stp 29 30 (.x 0) 232, .movFromSp 2, .str 2 (.x 0) 248]

/-- context_switch.S:49-58. -/
def restoreContext : List Instr :=
  [.ldp 19 20 (.x 1) 152, .ldp 21 22 (.x 1) 168, .ldp 23 24 (.x 1) 184, .ldp 25 26 (.x 1) 200, .ldp 27 28 (.x 1) 216,
    .ldp 29 30 (.x 1) 232, .ldr 2 (.x 1) 248, .movToSp 2]

/-- A null pointer skips its half. -/
def contextSwitch (s : State) : Option State :=
  exec ((if s.x 0 = 0 then [] else saveContext) ++ if s.x 1 = 0 then [] else restoreContext) s

/-- What a call keeps: `x19`..`x29`, the return address and the stack pointer. -/
def calleeSaved (s : State) : List Word := s.registers 19 12 ++ [s.sp]

/-- The words of a context that the routine uses. -/
def contextWords (m : ByteMemory.Memory 64) (context : Word) : List Word := words m (context + 152#64) 13

section
variable {s : State}

theorem length_calleeSaved (s : State) : (calleeSaved s).length = 13 := by
  rw [calleeSaved, List.length_append, length_registers]
  rfl

theorem exec_saveContext (s : State) : exec saveContext s = some { s with
    x := Function.update s.x 2 s.sp
    memory := storeWords s.memory (s.x 0 + 152#64) (calleeSaved s) } := by
  have haddress : s.address (.x 0) 152 = some (s.x 0 + 152#64) := rfl
  have hcode : saveContext = spill 19 6 (.x 0) 152 ++ [.movFromSp 2, .str 2 (.x 0) 248] := rfl
  have hlast : s.x 0 + BitVec.ofNat 64 248 = s.x 0 + 152#64 + BitVec.ofNat 64 (8 * 12) := by
    rw [BitVec.add_assoc]
    rfl
  rw [hcode, exec_append, exec_spill haddress 19 6, Option.bind_some, calleeSaved, storeWords_append, length_registers, ← hlast]
  rfl

theorem exec_restoreContext (s : State) : ∃ s', exec restoreContext s = some s' ∧
    calleeSaved s' = contextWords s.memory (s.x 1) ∧ s'.memory = s.memory := by
  have haddress : s.address (.x 1) 152 = some (s.x 1 + 152#64) := rfl
  have hcode : restoreContext = fill 19 6 (.x 1) 152 ++ [.ldr 2 (.x 1) 248, .movToSp 2] := rfl
  have hfill := exec_fill haddress 19 6 fun r hr => by
    cases hr
    exact Or.inl (by decide)
  have hlast : s.x 1 + BitVec.ofNat 64 248 = s.x 1 + 152#64 + BitVec.ofNat 64 (8 * 12) := by
    rw [BitVec.add_assoc]
    rfl
  rw [hcode, exec_append, hfill, Option.bind_some]
  refine ⟨{
    x := Function.update (fun r => if 19 ≤ r ∧ r < 19 + 2 * 6 then loadWord s.memory (s.x 1 + 152#64 + BitVec.ofNat 64 (8 * (r - 19)))
      else s.x r) 2 (loadWord s.memory (s.x 1 + BitVec.ofNat 64 248))
    sp := loadWord s.memory (s.x 1 + BitVec.ofNat 64 248)
    sys := s.sys
    memory := s.memory }, rfl, ?_, rfl⟩
  rw [contextWords, words_succ, calleeSaved, ← hlast]
  refine congrArg (· ++ [loadWord s.memory (s.x 1 + BitVec.ofNat 64 248)]) (List.map_congr_left fun i hi => ?_)
  have hi := List.mem_range.1 hi
  rw [State.read, if_neg (by omega)]
  dsimp only
  rw [Function.update_of_ne (by omega), if_pos (by omega), Nat.add_sub_cancel_left]

/-- Of memory only the saved words change. -/
theorem contextSwitch_eq (h0 : s.x 0 ≠ 0) (h1 : s.x 1 ≠ 0) : ∃ s', contextSwitch s = some s' ∧
    s'.memory = storeWords s.memory (s.x 0 + 152#64) (calleeSaved s) ∧ calleeSaved s' = contextWords s'.memory (s.x 1) := by
  obtain ⟨s', hexec, hsaved, hmemory⟩ := exec_restoreContext
    { s with x := Function.update s.x 2 s.sp, memory := storeWords s.memory (s.x 0 + 152#64) (calleeSaved s) }
  refine ⟨s', ?_, hmemory, ?_⟩
  · rw [contextSwitch, if_neg h0, if_neg h1, exec_append, exec_saveContext, Option.bind_some, hexec]
  · rw [hsaved, hmemory]
    rfl

end

/-! ## Threads -/

structure Threads (ι : Type) where
  cpu : State
  current : ι

inductive ThreadEvent (ι : Type) where
  | run (s : State)
  | switch (j : ι)

section
variable {ι : Type} (context : ι → Word)

/-- The call of the current thread. -/
def switchCall (t : Threads ι) (j : ι) : State :=
  { t.cpu with x := Function.update (Function.update t.cpu.x 0 (context t.current)) 1 (context j) }

def threadStep (t : Threads ι) : ThreadEvent ι → Threads ι
  | .run s => { t with cpu := s }
  | .switch j => { cpu := (contextSwitch (switchCall context t j)).getD t.cpu, current := j }

/-- The 104 bytes of the words of a context. -/
def InContext (i : ι) (b : Word) : Prop := ByteMemory.Covers (context i + 152#64) (8 * 13) b

/-- A thread leaves the contexts of the others alone. -/
def ThreadOk (t : Threads ι) : ThreadEvent ι → Prop
  | .run s => ∀ i, i ≠ t.current → ∀ b, InContext context i b → s.memory b = t.cpu.memory b
  | .switch _ => True

/-- Contexts are nowhere null and do not overlap. -/
structure Separate : Prop where
  nonnull : ∀ i, context i ≠ 0
  disjoint : ∀ i j, i ≠ j → ∀ b, InContext context i b → ¬ InContext context j b

end

section
variable {ι : Type} {context : ι → Word}

theorem contextWords_congr {m m' : ByteMemory.Memory 64} {i : ι} (h : ∀ b, InContext context i b → m b = m' b) :
    contextWords m (context i) = contextWords m' (context i) := words_congr (by decide) h

theorem calleeSaved_switchCall (t : Threads ι) (j : ι) : calleeSaved (switchCall context t j) = calleeSaved t.cpu := by
  have hread : ∀ i, (switchCall context t j).read (19 + i) = t.cpu.read (19 + i) := fun i => by
    simp only [State.read, switchCall]
    rw [Function.update_of_ne (by omega), Function.update_of_ne (by omega)]
  simp only [calleeSaved, State.registers, hread]
  rfl

variable [DecidableEq ι]

/-- What thread `i` must get back: what it called the routine with, or the words its context started with. -/
def lastSaved (context : ι → Word) (start : State) : List (Threads ι × ThreadEvent ι) → ι → List Word
  | [], i => contextWords start.memory (context i)
  | (t, .switch _) :: h, i => if i = t.current then calleeSaved t.cpu else lastSaved context start h i
  | (_, .run _) :: h, i => lastSaved context start h i

/-- One switch: the words of the caller are saved, those of the other contexts stay, and the next thread gets its own. -/
theorem switch_spec (hc : Separate context) (t : Threads ι) (j : ι) :
    ∃ s', contextSwitch (switchCall context t j) = some s' ∧
      (∀ i, contextWords s'.memory (context i) =
        if i = t.current then calleeSaved t.cpu else contextWords t.cpu.memory (context i)) ∧
      calleeSaved s' = contextWords s'.memory (context j) := by
  have h0 : (switchCall context t j).x 0 = context t.current := rfl
  have h1 : (switchCall context t j).x 1 = context j := rfl
  obtain ⟨s', hexec, hmemory, hnext⟩ := contextSwitch_eq (s := switchCall context t j) (h0 ▸ hc.nonnull _) (h1 ▸ hc.nonnull _)
  rw [h0, calleeSaved_switchCall] at hmemory
  rw [h1] at hnext
  refine ⟨s', hexec, fun i => ?_, hnext⟩
  have hlength := length_calleeSaved t.cpu
  split
  · next hi =>
    subst hi
    rw [hmemory, contextWords, ← hlength]
    exact words_storeWords (by rw [hlength]; decide)
  · next hi =>
    refine contextWords_congr fun b hb => ?_
    rw [hmemory]
    refine storeWords_of_not_covers fun hcovers => hc.disjoint i t.current hi b hb ?_
    rw [hlength] at hcovers
    exact hcovers

/-- The context of every thread off the processor holds what it must get back. -/
def Suspended (context : ι → Word) (start : State) (h : List (Threads ι × ThreadEvent ι)) (t : Threads ι) : Prop :=
  ∀ i, i ≠ t.current → contextWords t.cpu.memory (context i) = lastSaved context start h i

theorem Suspended.step (hc : Separate context) {start : State} {h : List (Threads ι × ThreadEvent ι)} {t : Threads ι}
    {e : ThreadEvent ι} (hok : ThreadOk context t e) (hs : Suspended context start h t) :
    Suspended context start ((t, e) :: h) (threadStep context t e) := by
  intro i hi
  cases e with
  | run s => exact (contextWords_congr fun b hb => hok i hi b hb).trans (hs i hi)
  | switch j =>
    obtain ⟨s', hexec, hwords, -⟩ := switch_spec hc t j
    simp only [threadStep, hexec, Option.getD_some]
    rw [hwords, lastSaved]
    split
    · rfl
    · next hne => exact hs i hne

/-- **A call of `lettuce_arch_context_switch` returns as if nothing had happened**: whatever threads run and switch in between,
the thread that is switched to gets exactly the callee-saved registers, the return address and the stack pointer with which it last
called the routine itself, or those its context was set up with. -/
theorem context_switch_returns (hc : Separate context) {start : State} {first : ι} {h : List (Threads ι × ThreadEvent ι)}
    {t : Threads ι} (r : Run (ThreadOk context) (threadStep context) ⟨start, first⟩ h t) (j : ι) :
    ∃ s', contextSwitch (switchCall context t j) = some s' ∧
      calleeSaved s' = lastSaved context start ((t, .switch j) :: h) j := by
  have hs : Suspended context start h t :=
    r.historyInvariant (fun _ _ => rfl) fun _ _ _ hok hs => hs.step hc hok
  obtain ⟨s', hexec, hwords, hnext⟩ := switch_spec hc t j
  refine ⟨s', hexec, ?_⟩
  rw [hnext, hwords, lastSaved]
  split
  · rfl
  · next hne => exact hs j hne

end

/-- Two contexts. -/
def twoContexts (second : Bool) : Word := if second then 0x40083000 else 0x40082000

def firstThread : State := { x := fun r => BitVec.ofNat 64 r, sp := 0x40100000, sys := fun _ => 0, memory := fun _ => 0 }

/-- The first thread switches to the second, and that one back. -/
theorem context_switch_returns_back :
    ∃ s', contextSwitch (switchCall twoContexts (threadStep twoContexts ⟨firstThread, false⟩ (.switch true)) false) = some s' ∧
      calleeSaved s' = calleeSaved firstThread := by
  have hc : Separate twoContexts := by
    refine ⟨by decide, fun i j hij b hi hj => ?_⟩
    have hfirst : (b - (twoContexts i + 152#64)).toNat < 104 := hi
    have hsecond : (b - (twoContexts j + 152#64)).toNat < 104 := hj
    cases i <;> cases j <;> simp only [twoContexts, if_true, Bool.false_eq_true, if_false, ne_eq, not_true_eq_false] at hij hfirst hsecond
    · bv_omega
    · bv_omega
  have hok : ThreadOk twoContexts ⟨firstThread, false⟩ (.switch true) := trivial
  exact context_switch_returns hc (Run.start.next _ hok) false

end Lettuce
