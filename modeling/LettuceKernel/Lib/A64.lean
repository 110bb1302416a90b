import LettuceKernel.Lib.ByteMemory
import Mathlib.Data.List.Range
/-!
# A64 blocks and loops

The few A64 instructions that entry and exit paths of a kernel are written in: loads and stores of one or two 64-bit
registers, moves between general and system registers, and the stack pointer. `exec p s` runs a block, `none` is an alignment
fault of the stack pointer. Register 31 reads as zero.

A block that spills consecutive registers is a `storeWords`, and one that fills them again reads it back
(`exec_spill`, `exec_fill`, `loadWord_storeWords`). `loop` repeats a block until a test at its top succeeds; `loop_spec` is the
rule with an invariant and a number that gets smaller.
-/

namespace A64

open ByteMemory

abbrev Word := BitVec 64

inductive SysReg where
  | elrEl1 | spsrEl1 | spEl0 | ttbr0El1 | daif
deriving DecidableEq, Repr

/-- The base of an address. -/
inductive Base where
  | sp
  | x (n : Nat)
deriving DecidableEq, Repr

structure State where
  x : Nat → Word
  sp : Word
  sys : SysReg → Word
  memory : Memory 64

inductive Instr where
  | stp (a b : Nat) (base : Base) (offset : Nat)
  | ldp (a b : Nat) (base : Base) (offset : Nat)
  | str (a : Nat) (base : Base) (offset : Nat)
  | ldr (a : Nat) (base : Base) (offset : Nat)
  | mrs (a : Nat) (r : SysReg)
  | msr (r : SysReg) (a : Nat)
  /-- `msr daifset, #mask`: the exceptions of the mask are held off. -/
  | daifSet (mask : Nat)
  | subSp (n : Nat)
  | addSp (n : Nat)
  | movFromSp (a : Nat)
  | movToSp (a : Nat)
  | adrp (a : Nat) (page : Word)
  | mov (a b : Nat)
  | add (a b n : Nat)
  | addToSp (a n : Nat)
  /-- `[x base], #n`: the base moves after the store. -/
  | stpPost (a b base n : Nat)
  | barrier

/-! ## Words in memory -/

@[irreducible] def loadWord (m : Memory 64) (a : Word) : Word := BitVec.ofNat 64 (load m a 8)

@[irreducible] def storeWord (m : Memory 64) (a v : Word) : Memory 64 := store m a 8 v.toNat

/-- The words of a list, from `a` on. -/
def storeWords (m : Memory 64) (a : Word) : List Word → Memory 64
  | [] => m
  | v :: vs => storeWords (storeWord m a v) (a + 8#64) vs

section
variable {m m' : Memory 64} {a b : Word} {v : Word} {vs vs' : List Word}

theorem loadWord_congr (h : ∀ b, Covers a 8 b → m b = m' b) : loadWord m a = loadWord m' a := by
  rw [loadWord, load_congr h, loadWord]

theorem loadWord_storeWord : loadWord (storeWord m a v) a = v := by
  rw [loadWord, storeWord, load_store (by decide)]
  apply BitVec.eq_of_toNat_eq
  have hv := v.isLt
  rw [BitVec.toNat_ofNat, Nat.mod_eq_of_lt (show v.toNat % 256 ^ 8 < 2 ^ 64 from Nat.mod_lt _ (by decide)),
    Nat.mod_eq_of_lt (show v.toNat < 256 ^ 8 from hv)]

/-- Zero is eight zero bytes. -/
theorem storeWord_zero : storeWord m a 0 b = if Covers a 8 b then 0 else m b := by
  rw [storeWord]
  exact store_zero

theorem storeWord_of_not_covers (h : ¬ Covers a 8 b) : storeWord m a v b = m b := by
  rw [storeWord, store_of_not_covers h]

theorem storeWords_append : storeWords m a (vs ++ vs') = storeWords (storeWords m a vs) (a + BitVec.ofNat 64 (8 * vs.length)) vs' := by
  induction vs generalizing m a with
  | nil => simp [storeWords]
  | cons v vs ih =>
    have haddress : a + 8#64 + BitVec.ofNat 64 (8 * vs.length) = a + BitVec.ofNat 64 (8 * (v :: vs).length) := by
      rw [List.length_cons, Nat.mul_succ, Nat.add_comm, BitVec.ofNat_add, BitVec.add_assoc]
    rw [List.cons_append, storeWords, ih, haddress, storeWords]

theorem ofNat_toNat_small {n : Nat} (h : n < 2 ^ 64) : (BitVec.ofNat 64 n).toNat = n := by
  rw [BitVec.toNat_ofNat, Nat.mod_eq_of_lt h]

/-- The first word and the rest. -/
theorem covers_words_succ {n : Nat} : Covers a (8 * (n + 1)) b ↔ Covers a 8 b ∨ Covers (a + 8#64) (8 * n) b := by
  have h8 : (8#64).toNat = 8 := rfl
  have hsplit := covers_add_iff (a := a) (b := b) (k := 8#64) (n := 8 * n)
  rw [h8] at hsplit
  rw [Nat.mul_succ, Nat.add_comm]
  exact hsplit

/-- Word `i` of a range belongs to it. -/
theorem covers_word {n i : Nat} (hi : i < n) (hn : 8 * n ≤ 2 ^ 64) (h : Covers (a + BitVec.ofNat 64 (8 * i)) 8 b) :
    Covers a (8 * n) b := by
  have hk := ofNat_toNat_small (show 8 * i < 2 ^ 64 by omega)
  have hpart := covers_add_iff (a := a) (b := b) (k := BitVec.ofNat 64 (8 * i)) (n := 8)
  rw [hk] at hpart
  exact Nat.lt_of_lt_of_le (hpart.2 (Or.inr h)) (by omega)

theorem storeWords_of_not_covers (h : ¬ Covers a (8 * vs.length) b) : storeWords m a vs b = m b := by
  induction vs generalizing m a with
  | nil => rfl
  | cons v vs ih =>
    rw [List.length_cons, covers_words_succ, not_or] at h
    rw [storeWords, ih h.2, storeWord_of_not_covers h.1]

/-- What was spilled is there, word by word. -/
theorem loadWord_storeWords (hlen : 8 * vs.length ≤ 2 ^ 64) {i : Nat} (hi : vs[i]? = some v) :
    loadWord (storeWords m a vs) (a + BitVec.ofNat 64 (8 * i)) = v := by
  induction vs generalizing m a i with
  | nil => cases hi
  | cons w vs ih =>
    rw [List.length_cons] at hlen
    cases i with
    | zero =>
      cases hi
      -- the words after the first leave it alone
      have hrest : ∀ b, Covers a 8 b → storeWords (storeWord m a v) (a + 8#64) vs b = storeWord m a v b := by
        intro b hb
        refine storeWords_of_not_covers fun hcovers => ?_
        exact not_covers_of_covers_add (k := 8#64) (show 8 + 8 * vs.length ≤ 2 ^ 64 by omega) hcovers hb
      rw [Nat.mul_zero, BitVec.add_zero, storeWords, loadWord_congr hrest, loadWord_storeWord]
    | succ i =>
      have haddress : a + BitVec.ofNat 64 (8 * (i + 1)) = a + 8#64 + BitVec.ofNat 64 (8 * i) := by
        rw [Nat.mul_succ, Nat.add_comm, BitVec.ofNat_add, BitVec.add_assoc]
      rw [haddress, storeWords]
      exact ih (by omega) hi

/-- The words from `a` on. -/
def words (m : Memory 64) (a : Word) (n : Nat) : List Word := (List.range n).map fun i => loadWord m (a + BitVec.ofNat 64 (8 * i))

theorem words_congr {n : Nat} (hn : 8 * n ≤ 2 ^ 64) (h : ∀ b, Covers a (8 * n) b → m b = m' b) : words m a n = words m' a n :=
  List.map_congr_left fun _ hi => loadWord_congr fun _ hb => h _ (covers_word (List.mem_range.1 hi) hn hb)

theorem words_storeWords (hlen : 8 * vs.length ≤ 2 ^ 64) : words (storeWords m a vs) a vs.length = vs := by
  refine List.ext_getElem (by rw [words, List.length_map, List.length_range]) fun i hi hi' => ?_
  simp only [words, List.getElem_map, List.getElem_range]
  exact loadWord_storeWords hlen (List.getElem?_eq_getElem hi')

theorem words_succ (n : Nat) : words m a (n + 1) = words m a n ++ [loadWord m (a + BitVec.ofNat 64 (8 * n))] := by
  rw [words, List.range_succ, List.map_append, words, List.map_singleton]

end

/-! ## Execution -/

namespace State

variable (s : State)

def read (n : Nat) : Word := if n = 31 then 0 else s.x n

def write (n : Nat) (v : Word) : State := { s with x := Function.update s.x n v }

/-- An access relative to the stack pointer needs it 16-byte aligned. -/
def address (base : Base) (offset : Nat) : Option Word :=
  match base with
  | .sp => if s.sp.toNat % 16 = 0 then some (s.sp + BitVec.ofNat 64 offset) else none
  | .x n => some (s.x n + BitVec.ofNat 64 offset)

end State

def step (s : State) : Instr → Option State
  | .stp a b base offset => (s.address base offset).map fun p =>
      { s with memory := storeWord (storeWord s.memory p (s.read a)) (p + 8#64) (s.read b) }
  | .ldp a b base offset => (s.address base offset).map fun p =>
      (s.write a (loadWord s.memory p)).write b (loadWord s.memory (p + 8#64))
  | .str a base offset => (s.address base offset).map fun p => { s with memory := storeWord s.memory p (s.read a) }
  | .ldr a base offset => (s.address base offset).map fun p => s.write a (loadWord s.memory p)
  | .mrs a r => some (s.write a (s.sys r))
  | .msr r a => some { s with sys := Function.update s.sys r (s.read a) }
  | .daifSet mask => some { s with sys := Function.update s.sys .daif (s.sys .daif ||| BitVec.ofNat 64 (mask * 64)) }
  | .subSp n => some { s with sp := s.sp - BitVec.ofNat 64 n }
  | .addSp n => some { s with sp := s.sp + BitVec.ofNat 64 n }
  | .movFromSp a => some (s.write a s.sp)
  | .movToSp a => some { s with sp := s.read a }
  | .adrp a page => some (s.write a page)
  | .mov a b => some (s.write a (s.read b))
  | .add a b n => some (s.write a (s.read b + BitVec.ofNat 64 n))
  | .addToSp a n => some { s with sp := s.read a + BitVec.ofNat 64 n }
  | .stpPost a b base n => some { s with
      x := Function.update s.x base (s.x base + BitVec.ofNat 64 n)
      memory := storeWord (storeWord s.memory (s.x base) (s.read a)) (s.x base + 8#64) (s.read b) }
  | .barrier => some s

def exec : List Instr → State → Option State
  | [], s => some s
  | i :: is, s => (step s i).bind (exec is)

theorem exec_append (p q : List Instr) (s : State) : exec (p ++ q) s = (exec p s).bind (exec q) := by
  induction p generalizing s with
  | nil => rfl
  | cons i p ih =>
    rw [List.cons_append, exec, exec, Option.bind_assoc]
    exact congrArg _ (funext ih)

/-- Leave when `done`, else run the body and come back. `none` is a fault, or too little fuel. -/
def loop (done : State → Bool) (body : List Instr) : (fuel : Nat) → State → Option State
  | 0, _ => none
  | fuel + 1, s => if done s then some s else (exec body s).bind (loop done body fuel)

/-- An invariant that the body keeps while it makes `variant` smaller holds at the end, and more fuel than the variant is
enough. -/
theorem loop_spec {done : State → Bool} {body : List Instr} {I : State → Prop} (variant : State → Nat)
    (hbody : ∀ s, I s → done s = false → ∃ s', exec body s = some s' ∧ I s' ∧ variant s' < variant s) (s : State) (hs : I s) :
    ∃ s', I s' ∧ done s' = true ∧ ∀ fuel, variant s < fuel → loop done body fuel s = some s' := by
  induction hn : variant s using Nat.strong_induction_on generalizing s with
  | _ n ih =>
    cases hdone : done s with
    | true =>
      refine ⟨s, hs, hdone, fun fuel hfuel => ?_⟩
      obtain ⟨fuel, rfl⟩ := Nat.exists_eq_succ_of_ne_zero (Nat.ne_of_gt (Nat.zero_lt_of_lt hfuel))
      rw [loop, if_pos hdone]
    | false =>
      obtain ⟨t, hexec, ht, hless⟩ := hbody s hs hdone
      obtain ⟨s', hs', hdone', hloop⟩ := ih (variant t) (by omega) t ht rfl
      refine ⟨s', hs', hdone', fun fuel hfuel => ?_⟩
      obtain ⟨fuel, rfl⟩ := Nat.exists_eq_succ_of_ne_zero (Nat.ne_of_gt (Nat.zero_lt_of_lt hfuel))
      rw [loop, hdone, if_neg Bool.false_ne_true, hexec, Option.bind_some, hloop fuel (by omega)]

/-! ## Spilling and filling -/

/-- Store `2 * n` registers from `first` on, at `offset` and the words after it. -/
def spill (first n : Nat) (base : Base) (offset : Nat) : List Instr :=
  (List.range n).map fun k => .stp (first + 2 * k) (first + 2 * k + 1) base (offset + 16 * k)

/-- Load them. -/
def fill (first n : Nat) (base : Base) (offset : Nat) : List Instr :=
  (List.range n).map fun k => .ldp (first + 2 * k) (first + 2 * k + 1) base (offset + 16 * k)

section
variable {s : State} {base : Base} {offset : Nat} {p : Word}

theorem address_add (h : s.address base offset = some p) (k : Nat) :
    s.address base (offset + k) = some (p + BitVec.ofNat 64 k) := by
  cases base with
  | sp =>
    simp only [State.address] at h ⊢
    split at h
    · rename_i haligned
      cases h
      rw [if_pos haligned, BitVec.ofNat_add, BitVec.add_assoc]
    · cases h
  | x n =>
    cases h
    simp only [State.address, BitVec.ofNat_add, BitVec.add_assoc]

/-- Registers from `first` on. -/
def State.registers (s : State) (first n : Nat) : List Word := (List.range n).map fun i => s.read (first + i)

theorem registers_succ_succ (s : State) (first n : Nat) :
    s.registers first (2 * (n + 1)) = s.registers first (2 * n) ++ [s.read (first + 2 * n), s.read (first + 2 * n + 1)] := by
  simp only [State.registers, Nat.mul_succ, List.range_succ, List.map_append, List.map_cons, List.map_nil, List.append_assoc,
    List.cons_append, List.nil_append, Nat.add_assoc]

theorem length_registers (s : State) (first n : Nat) : (s.registers first n).length = n := by
  rw [State.registers, List.length_map, List.length_range]

/-- Spilled registers are consecutive words. -/
theorem exec_spill (h : s.address base offset = some p) (first n : Nat) :
    exec (spill first n base offset) s = some { s with memory := storeWords s.memory p (s.registers first (2 * n)) } := by
  induction n with
  | zero => rfl
  | succ n ih =>
    have haddress : State.address { s with memory := storeWords s.memory p (s.registers first (2 * n)) } base (offset + 16 * n) =
        some (p + BitVec.ofNat 64 (16 * n)) := address_add h (16 * n)
    have hread : ∀ m r, State.read { s with memory := m } r = s.read r := fun _ _ => rfl
    rw [spill, List.range_succ, List.map_append, exec_append, ← spill, ih, Option.bind_some, List.map_singleton, exec, step, haddress]
    simp only [Option.map_some, Option.bind_some, exec, hread, registers_succ_succ, storeWords_append, length_registers, storeWords,
      ← Nat.mul_assoc]

/-- Filled registers are consecutive words. The base is not among them. -/
theorem exec_fill (h : s.address base offset = some p) (first n : Nat)
    (hbase : ∀ r, base = .x r → r < first ∨ first + 2 * n ≤ r) :
    exec (fill first n base offset) s = some { s with
      x := fun r => if first ≤ r ∧ r < first + 2 * n then loadWord s.memory (p + BitVec.ofNat 64 (8 * (r - first))) else s.x r } := by
  induction n with
  | zero =>
    have hnone : ∀ r, ¬ (first ≤ r ∧ r < first + 2 * 0) := fun r => by omega
    simp only [hnone, if_false]
    rfl
  | succ n ih =>
    have hbefore : ∀ r, base = .x r → r < first ∨ first + 2 * n ≤ r := fun r hr => by
      have := hbase r hr
      omega
    have haddress : State.address { s with
        x := fun r => if first ≤ r ∧ r < first + 2 * n then loadWord s.memory (p + BitVec.ofNat 64 (8 * (r - first))) else s.x r }
        base (offset + 16 * n) = some (p + BitVec.ofNat 64 (16 * n)) := by
      rw [← address_add h (16 * n)]
      cases base with
      | sp => rfl
      | x r =>
        have hr := hbefore r rfl
        simp only [State.address, show ¬ (first ≤ r ∧ r < first + 2 * n) by have := hbase r rfl; omega, if_false]
    rw [fill, List.range_succ, List.map_append, exec_append, ← fill, ih hbefore, Option.bind_some, List.map_singleton, exec, step,
      haddress]
    simp only [Option.map_some, Option.bind_some, exec, State.write]
    congr 2
    funext r
    by_cases hsecond : r = first + 2 * n + 1
    · subst hsecond
      rw [Function.update_self, if_pos (by omega), show first + 2 * n + 1 - first = 2 * n + 1 by omega, BitVec.add_assoc,
        show 8 * (2 * n + 1) = 16 * n + 8 by omega, BitVec.ofNat_add]
    · rw [Function.update_of_ne hsecond]
      by_cases hfirst : r = first + 2 * n
      · subst hfirst
        rw [Function.update_self, if_pos (by omega), show first + 2 * n - first = 2 * n by omega, ← Nat.mul_assoc]
      · rw [Function.update_of_ne hfirst]
        simp only [show (first ≤ r ∧ r < first + 2 * (n + 1)) ↔ (first ≤ r ∧ r < first + 2 * n) by omega]

end

/-! ## What a block leaves alone -/

/-- The general registers that an instruction writes. -/
def Instr.writes : Instr → List Nat
  | .ldp a b _ _ => [a, b]
  | .ldr a _ _ => [a]
  | .mrs a _ => [a]
  | .movFromSp a => [a]
  | .adrp a _ => [a]
  | .mov a _ => [a]
  | .add a _ _ => [a]
  | .stpPost _ _ base _ => [base]
  | _ => []

/-- The stack pointer moves by multiples of 16. -/
def Instr.Steady : Instr → Prop
  | .subSp n => n % 16 = 0 ∧ n < 2 ^ 64
  | .addSp n => n % 16 = 0 ∧ n < 2 ^ 64
  | .movToSp _ => False
  | .addToSp _ _ => False
  | _ => True

section
variable {s s' : State} {p : List Instr}

theorem step_x {i : Instr} (h : step s i = some s') {r : Nat} (hr : r ∉ i.writes) : s'.x r = s.x r := by
  cases i with
  | stp | str =>
    obtain ⟨q, -, rfl⟩ := Option.map_eq_some_iff.1 h
    rfl
  | ldp a b =>
    obtain ⟨q, -, rfl⟩ := Option.map_eq_some_iff.1 h
    simp only [Instr.writes, List.mem_cons, List.not_mem_nil, or_false, not_or] at hr
    simp only [State.write, Function.update_of_ne hr.2, Function.update_of_ne hr.1]
  | ldr a =>
    obtain ⟨q, -, rfl⟩ := Option.map_eq_some_iff.1 h
    simp only [Instr.writes, List.mem_cons, List.not_mem_nil, or_false] at hr
    simp only [State.write, Function.update_of_ne hr]
  | mrs | movFromSp | adrp | mov | add | stpPost =>
    cases h
    simp only [Instr.writes, List.mem_cons, List.not_mem_nil, or_false] at hr
    simp only [State.write, Function.update_of_ne hr]
  | _ =>
    cases h
    rfl

theorem exec_cons_some {i : Instr} (h : exec (i :: p) s = some s') : ∃ t, step s i = some t ∧ exec p t = some s' :=
  Option.bind_eq_some_iff.1 h

theorem exec_x (h : exec p s = some s') {r : Nat} (hr : ∀ i ∈ p, r ∉ i.writes) : s'.x r = s.x r := by
  induction p generalizing s with
  | nil =>
    cases h
    rfl
  | cons i p ih =>
    obtain ⟨t, hstep, hrest⟩ := exec_cons_some h
    rw [ih hrest fun j hj => hr j (List.mem_cons_of_mem _ hj), step_x hstep (hr i (List.mem_cons_self ..))]

/-- A multiple of 16 keeps the stack pointer aligned. -/
theorem sub_aligned {sp : Word} (h : sp.toNat % 16 = 0) {n : Nat} (hn : n % 16 = 0) (hlt : n < 2 ^ 64) :
    (sp - BitVec.ofNat 64 n).toNat % 16 = 0 := by
  have hsp := sp.isLt
  rw [BitVec.toNat_sub, BitVec.toNat_ofNat, Nat.mod_eq_of_lt hlt, Nat.mod_mod_of_dvd _ (show 16 ∣ 2 ^ 64 by decide)]
  omega

theorem add_aligned {sp : Word} (h : sp.toNat % 16 = 0) {n : Nat} (hn : n % 16 = 0) (hlt : n < 2 ^ 64) :
    (sp + BitVec.ofNat 64 n).toNat % 16 = 0 := by
  rw [BitVec.toNat_add, BitVec.toNat_ofNat, Nat.mod_eq_of_lt hlt, Nat.mod_mod_of_dvd _ (show 16 ∣ 2 ^ 64 by decide)]
  omega

/-- From an aligned stack pointer, a block whose moves are multiples of 16 does not fault. -/
theorem exec_steady (h : s.sp.toNat % 16 = 0) (hp : ∀ i ∈ p, i.Steady) : ∃ s', exec p s = some s' ∧ s'.sp.toNat % 16 = 0 := by
  induction p generalizing s with
  | nil => exact ⟨s, rfl, h⟩
  | cons i p ih =>
    have hi := hp i (List.mem_cons_self ..)
    have haddress : ∀ base offset, ∃ q, s.address base offset = some q := by
      intro base offset
      cases base with
      | sp => exact ⟨_, by rw [State.address, if_pos h]⟩
      | x n => exact ⟨_, rfl⟩
    have hstep : ∃ t, step s i = some t ∧ t.sp.toNat % 16 = 0 := by
      cases i with
      | stp a b base offset | ldp a b base offset | str a base offset | ldr a base offset =>
        obtain ⟨q, hq⟩ := haddress base offset
        exact ⟨_, Option.map_eq_some_iff.2 ⟨q, hq, rfl⟩, h⟩
      | subSp n => exact ⟨_, rfl, sub_aligned h hi.1 hi.2⟩
      | addSp n => exact ⟨_, rfl, add_aligned h hi.1 hi.2⟩
      | movToSp a => exact absurd hi id
      | addToSp a n => exact absurd hi id
      | _ => exact ⟨_, rfl, h⟩
    obtain ⟨t, ht, htop⟩ := hstep
    obtain ⟨s', hs', hsp⟩ := ih htop fun j hj => hp j (List.mem_cons_of_mem _ hj)
    exact ⟨s', by rw [exec, ht, Option.bind_some, hs'], hsp⟩

end

end A64
