import LettuceKernel.Cpu
import LettuceKernel.Lib.A64
/-!
# Exception entry and exit in assembly (`exception.S`, `entry.S`, `elevator.S`)

| here | there |
| --- | --- |
| `saveFrame`, `restoreFrame` | the four vector stubs (exception.S:81-283), which differ in the handler they call |
| `frameAt`            | `LettuceTrapFrame` (arch.h:77), 272 bytes |
| `el0Enter`           | `lettuce_el0_enter` (entry.S:40), up to the ERET |
| `resumeKernel`       | `lettuce_el0_resume_kernel` (entry.S:70), up to the RET |
| `elevatorTransition` | `lettuce_elevator_asm_transition` (elevator.S:41) |

An exception from EL0 leaves the program counter in ELR_EL1 and the processor state in SPSR_EL1; ERET takes them from there. The
C handler is any code that comes back with the stack pointer it was called with; the rest of what a call may clobber is
restored from the frame. IRQs are masked from the exception on, and the ERET takes the mask of the interrupted code from SPSR_EL1:
between two blocks of the same code DAIF is as it was. `el0Enter` does not mask IRQs, and the kernel enters its scheduled runs
with IRQs on (main.c:790-793).
-/

namespace Lettuce

open A64 Runs

/-! ## The code -/

/-- exception.S:82-105, before the call. -/
def saveFrame : List Instr :=
  [.subSp 272,
    .stp 0 1 .sp 0, .stp 2 3 .sp 16, .stp 4 5 .sp 32, .stp 6 7 .sp 48, .stp 8 9 .sp 64, .stp 10 11 .sp 80,
    .stp 12 13 .sp 96, .stp 14 15 .sp 112, .stp 16 17 .sp 128, .stp 18 19 .sp 144, .stp 20 21 .sp 160, .stp 22 23 .sp 176,
    .stp 24 25 .sp 192, .stp 26 27 .sp 208, .stp 28 29 .sp 224, .str 30 .sp 240,
    .mrs 21 .elrEl1, .mrs 22 .spsrEl1, .stp 21 22 .sp 248, .mrs 23 .spEl0, .str 23 .sp 264, .movFromSp 0]

/-- exception.S:108-129, from the return of the handler to the ERET. -/
def restoreFrame : List Instr :=
  [.ldr 23 .sp 264, .msr .spEl0 23, .ldp 21 22 .sp 248, .msr .elrEl1 21, .msr .spsrEl1 22,
    .ldp 0 1 .sp 0, .ldp 2 3 .sp 16, .ldp 4 5 .sp 32, .ldp 6 7 .sp 48, .ldp 8 9 .sp 64, .ldp 10 11 .sp 80,
    .ldp 12 13 .sp 96, .ldp 14 15 .sp 112, .ldp 16 17 .sp 128, .ldp 18 19 .sp 144, .ldp 20 21 .sp 160, .ldp 22 23 .sp 176,
    .ldp 24 25 .sp 192, .ldp 26 27 .sp 208, .ldp 28 29 .sp 224, .ldr 30 .sp 240, .addSp 272]

/-- `ADRP` gives the page of a symbol, `:lo12:` the rest. -/
def pageWord (g : Word) : Word := g - BitVec.ofNat 64 (g.toNat % 4096)

def lo12 (g : Word) : Nat := g.toNat % 4096

/-- entry.S:41-57; `g` is the address of `g_el1_saved_sp`. -/
def el0Enter (g : Word) : List Instr :=
  [.subSp 96, .stp 19 20 .sp 0, .stp 21 22 .sp 16, .stp 23 24 .sp 32, .stp 25 26 .sp 48, .stp 27 28 .sp 64, .stp 29 30 .sp 80,
    .adrp 2 (pageWord g), .movFromSp 3, .str 3 (.x 2) (lo12 g),
    .msr .elrEl1 0, .msr .spEl0 1, .msr .spsrEl1 31, .barrier]

/-- entry.S:71-82. -/
def resumeKernel (g : Word) : List Instr :=
  [.adrp 2 (pageWord g), .ldr 3 (.x 2) (lo12 g), .movToSp 3,
    .ldp 19 20 .sp 0, .ldp 21 22 .sp 16, .ldp 23 24 .sp 32, .ldp 25 26 .sp 48, .ldp 27 28 .sp 64, .ldp 29 30 .sp 80, .addSp 96]

/-- elevator.S:43-53, with the descriptor at `x0` and the trap frame at `x1`. -/
def elevatorTransition : List Instr :=
  [.ldr 2 (.x 0) 16, .barrier, .msr .ttbr0El1 2, .barrier, .ldr 3 (.x 0) 0, .ldr 4 (.x 0) 8,
    .str 3 (.x 1) 248, .str 31 (.x 1) 256, .str 4 (.x 1) 264]

/-! ## Frames -/

/-- The registers of EL0, as an exception finds them and ERET leaves them. -/
def el0Registers (s : State) : TrapFrame where
  x := fun r => s.x r.val
  lr := s.x 30
  elr := s.sys .elrEl1
  spsr := s.sys .spsrEl1
  spEl0 := s.sys .spEl0

/-- The trap frame at an address. -/
def frameAt (m : ByteMemory.Memory 64) (p : Word) : TrapFrame where
  x := fun r => loadWord m (p + BitVec.ofNat 64 (8 * r.val))
  lr := loadWord m (p + BitVec.ofNat 64 240)
  elr := loadWord m (p + BitVec.ofNat 64 248)
  spsr := loadWord m (p + BitVec.ofNat 64 256)
  spEl0 := loadWord m (p + BitVec.ofNat 64 264)

/-- The 34 words of a frame in the order of `LettuceTrapFrame`. -/
def frameWords (s : State) : List Word :=
  s.registers 0 30 ++ [s.x 30, s.sys .elrEl1, s.sys .spsrEl1, s.sys .spEl0]

section
variable {s : State}

theorem saveFrame_eq : saveFrame = .subSp 272 :: (spill 0 15 .sp 0 ++
    [.str 30 .sp 240, .mrs 21 .elrEl1, .mrs 22 .spsrEl1, .stp 21 22 .sp 248, .mrs 23 .spEl0, .str 23 .sp 264, .movFromSp 0]) := rfl

theorem restoreFrame_eq : restoreFrame =
    [.ldr 23 .sp 264, .msr .spEl0 23, .ldp 21 22 .sp 248, .msr .elrEl1 21, .msr .spsrEl1 22] ++ (fill 0 15 .sp 0 ++
      [.ldr 30 .sp 240, .addSp 272]) := rfl

theorem length_frameWords (s : State) : (frameWords s).length = 34 := by
  rw [frameWords, List.length_append, length_registers]
  rfl

theorem registers_getElem? (s : State) (first : Nat) {n i : Nat} (hi : i < n) : (s.registers first n)[i]? = some (s.read (first + i)) := by
  rw [State.registers, List.getElem?_map, List.getElem?_range hi, Option.map_some]

/-- A frame of these words is read back as the registers. -/
theorem frameAt_storeWords (m : ByteMemory.Memory 64) (p : Word) : frameAt (storeWords m p (frameWords s)) p = el0Registers s := by
  have hlen : 8 * (frameWords s).length ≤ 2 ^ 64 := by
    rw [length_frameWords]
    decide
  have hlast : ∀ i v offset, offset = 8 * (30 + i) → [s.x 30, s.sys .elrEl1, s.sys .spsrEl1, s.sys .spEl0][i]? = some v →
      loadWord (storeWords m p (frameWords s)) (p + BitVec.ofNat 64 offset) = v := by
    rintro i v offset rfl hi
    refine loadWord_storeWords hlen ?_
    rw [frameWords, List.getElem?_append_right (by rw [length_registers]; omega), length_registers, Nat.add_sub_cancel_left, hi]
  have hx : ∀ r : Fin 30, loadWord (storeWords m p (frameWords s)) (p + BitVec.ofNat 64 (8 * r.val)) = s.x r.val := by
    intro r
    refine loadWord_storeWords hlen ?_
    rw [frameWords, List.getElem?_append_left (by rw [length_registers]; exact r.isLt), registers_getElem? s 0 r.isLt,
      Nat.zero_add, State.read, if_neg (by omega)]
  have hlr := hlast 0 (s.x 30) 240 rfl rfl
  have helr := hlast 1 (s.sys .elrEl1) 248 rfl rfl
  have hspsr := hlast 2 (s.sys .spsrEl1) 256 rfl rfl
  have hsp := hlast 3 (s.sys .spEl0) 264 rfl rfl
  rw [frameAt, el0Registers, hlr, helr, hspsr, hsp, funext hx]

/-! ## Entry -/

/-- What the handler is called with. -/
theorem exec_saveFrame (haligned : s.sp.toNat % 16 = 0) :
    ∃ s₁, exec saveFrame s = some s₁ ∧ s₁.sp = s.sp - 272#64 ∧ s₁.x 0 = s₁.sp ∧
      s₁.memory = storeWords s.memory (s.sp - 272#64) (frameWords s) := by
  have hsp : (s.sp - 272#64).toNat % 16 = 0 := sub_aligned haligned (by decide) (by decide)
  have haddress : ∀ t : State, t.sp = s.sp - 272#64 → ∀ offset,
      t.address .sp offset = some (s.sp - 272#64 + BitVec.ofNat 64 offset) := by
    intro t ht offset
    rw [State.address, ht, if_pos hsp]
  have hspill := exec_spill (haddress { s with sp := s.sp - 272#64 } rfl 0) 0 15
  rw [BitVec.add_zero] at hspill
  have hwords : storeWords s.memory (s.sp - 272#64) (frameWords s) =
      storeWord (storeWord (storeWord (storeWord (storeWords s.memory (s.sp - 272#64) (s.registers 0 30))
        (s.sp - 272#64 + BitVec.ofNat 64 240) (s.x 30)) (s.sp - 272#64 + BitVec.ofNat 64 248) (s.sys .elrEl1))
          (s.sp - 272#64 + BitVec.ofNat 64 248 + 8#64) (s.sys .spsrEl1)) (s.sp - 272#64 + BitVec.ofNat 64 264) (s.sys .spEl0) := by
    rw [frameWords, storeWords_append, length_registers]
    simp only [storeWords, BitVec.add_assoc]
    rfl
  refine ⟨{ s with
    sp := s.sp - 272#64
    x := Function.update (Function.update (Function.update (Function.update s.x 21 (s.sys .elrEl1)) 22 (s.sys .spsrEl1)) 23
      (s.sys .spEl0)) 0 (s.sp - 272#64)
    memory := storeWords s.memory (s.sp - 272#64) (frameWords s) }, ?_, rfl, by simp only [Function.update_self], rfl⟩
  rw [saveFrame_eq, exec, step, Option.bind_some, exec_append, hspill, Option.bind_some, hwords]
  simp only [exec, step, haddress, Option.map_some, Option.bind_some, State.write, State.read]
  rfl

/-! ## Exit -/

/-- What ERET finds. -/
theorem exec_restoreFrame (haligned : s.sp.toNat % 16 = 0) :
    ∃ s₁, exec restoreFrame s = some s₁ ∧ el0Registers s₁ = frameAt s.memory s.sp ∧ s₁.sp = s.sp + 272#64 ∧
      s₁.memory = s.memory := by
  have haddress : ∀ t : State, t.sp = s.sp → ∀ offset, t.address .sp offset = some (s.sp + BitVec.ofNat 64 offset) := by
    intro t ht offset
    rw [State.address, ht, if_pos haligned]
  let w : Nat → Word := fun offset => loadWord s.memory (s.sp + BitVec.ofNat 64 offset)
  let t : State := { s with
    x := Function.update (Function.update (Function.update s.x 23 (w 264)) 21 (w 248)) 22 (w 256)
    sys := Function.update (Function.update (Function.update s.sys .spEl0 (w 264)) .elrEl1 (w 248)) .spsrEl1 (w 256) }
  have hsecond : s.sp + BitVec.ofNat 64 248 + 8#64 = s.sp + BitVec.ofNat 64 256 := by rw [BitVec.add_assoc]; rfl
  have hfirst : exec [.ldr 23 .sp 264, .msr .spEl0 23, .ldp 21 22 .sp 248, .msr .elrEl1 21, .msr .spsrEl1 22] s = some t := by
    simp only [exec, step, haddress, Option.map_some, Option.bind_some, State.write, State.read, hsecond]
    rfl
  let u : State := { t with x := fun r =>
    if 0 ≤ r ∧ r < 0 + 2 * 15 then loadWord s.memory (s.sp + BitVec.ofNat 64 0 + BitVec.ofNat 64 (8 * (r - 0))) else t.x r }
  have hfill : exec (fill 0 15 .sp 0) t = some u := exec_fill (haddress t rfl 0) 0 15 fun _ h => by cases h
  refine ⟨{ u with x := Function.update u.x 30 (w 240), sp := s.sp + 272#64 }, ?_, ?_, rfl, rfl⟩
  · rw [restoreFrame_eq, exec_append, hfirst, Option.bind_some, exec_append, hfill, Option.bind_some]
    simp only [exec, step, State.write]
    rw [haddress u rfl 240, Option.map_some, Option.bind_some]
    rfl
  · unfold el0Registers frameAt
    congr 1
    funext r
    have hr := r.isLt
    dsimp only
    rw [Function.update_of_ne (by omega)]
    simp only [u, Nat.zero_le, true_and, show r.val < 0 + 2 * 15 by omega, if_true, BitVec.add_zero, Nat.sub_zero]

/-! ## The kernel below an excursion -/

/-- The bytes that bring the kernel back: `g_el1_saved_sp` and the 96 bytes that `lettuce_el0_enter` saved below `top`. -/
def KernelBytes (g top b : Word) : Prop := ByteMemory.Covers g 8 b ∨ ByteMemory.Covers (top - 96#64) 96 b

/-- They are the same in both memories. -/
def Kept (g top : Word) (m m' : ByteMemory.Memory 64) : Prop := ∀ b, KernelBytes g top b → m' b = m b

/-- What happens between `lettuce_el0_enter` and `lettuce_el0_resume_kernel`: EL0 runs and comes to an exception with some
registers and memory, or an exception is handled, from the call of the handler (with the state it returns in)
to the ERET. -/
inductive Excursion where
  | el0 (frame : TrapFrame) (memory : ByteMemory.Memory 64)
  | exception (handled : State)

def withEl0 (s : State) (frame : TrapFrame) (memory : ByteMemory.Memory 64) : State where
  x := fun r => if h : r < 30 then frame.x ⟨r, h⟩ else if r = 30 then frame.lr else s.x r
  sp := s.sp
  sys := Function.update (Function.update (Function.update s.sys .elrEl1 frame.elr) .spsrEl1 frame.spsr) .spEl0 frame.spEl0
  memory := memory

theorem el0Registers_withEl0 (s : State) (frame : TrapFrame) (memory : ByteMemory.Memory 64) :
    el0Registers (withEl0 s frame memory) = frame := by
  have hx : (fun r : Fin 30 => (withEl0 s frame memory).x r.val) = frame.x := funext fun r => dif_pos r.isLt
  rw [el0Registers, hx]
  rfl

def excursionStep (s : State) : Excursion → State
  | .el0 frame memory => withEl0 s frame memory
  | .exception handled => (exec restoreFrame handled).getD handled

/-- The handler is called with the frame below the stack pointer of `s`, and leaves the kernel's bytes alone. -/
def Handles (g top : Word) (s handled : State) : Prop :=
  ∃ s₁, exec saveFrame s = some s₁ ∧ Kept g top s₁.memory handled.memory

def ExcursionOk (g top : Word) (s : State) : Excursion → Prop
  | .el0 _ memory => Kept g top s.memory memory
  | .exception handled => Handles g top s handled ∧ handled.sp = s.sp - 272#64

/-- The kernel can be resumed as `k` left it. -/
structure Resumable (g : Word) (k s : State) : Prop where
  sp : s.sp = k.sp - 96#64
  saved : loadWord s.memory g = k.sp - 96#64
  words : ∀ i, i < 12 → loadWord s.memory (k.sp - 96#64 + BitVec.ofNat 64 (8 * i)) = k.x (19 + i)

/-- `g_el1_saved_sp` is not on the stack. -/
def OffStack (g top : Word) : Prop := ∀ b, ByteMemory.Covers g 8 b → ¬ ByteMemory.Covers (top - 368#64) 368 b

end

section
variable {g : Word} {k s : State}

theorem sub_split (top : Word) : top - 96#64 - 272#64 = top - 368#64 ∧ top - 368#64 + 272#64 = top - 96#64 := by
  constructor
  · rw [BitVec.sub_sub]
    rfl
  · rw [show (368#64 : Word) = 96#64 + 272#64 from rfl, ← BitVec.sub_sub, BitVec.sub_add_cancel]

/-- The saved registers are above the frame of an exception. -/
theorem covers_saved {top b : Word} (h : ByteMemory.Covers (top - 96#64) 96 b) :
    ByteMemory.Covers (top - 368#64) 368 b ∧ ¬ ByteMemory.Covers (top - 368#64) 272 b := by
  have h272 : (272#64).toNat = 272 := rfl
  rw [← (sub_split top).2] at h
  have hwhole := ByteMemory.covers_add_iff (a := top - 368#64) (b := b) (k := 272#64) (n := 96)
  have hpart := ByteMemory.not_covers_of_covers_add (a := top - 368#64) (b := b) (k := 272#64) (n := 96) (by decide) h
  rw [h272] at hwhole hpart
  exact ⟨hwhole.2 (Or.inr h), hpart⟩

/-- The frame of an exception does not overlap the kernel's bytes. -/
theorem KernelBytes.off_frame (hg : OffStack g k.sp) (hs : s.sp = k.sp - 96#64) {b : Word} (hb : KernelBytes g k.sp b) :
    ¬ ByteMemory.Covers (s.sp - 272#64) 272 b := by
  intro hcovers
  rw [hs, (sub_split k.sp).1] at hcovers
  rcases hb with hb | hb
  · exact hg b hb (hcovers.mono (by decide))
  · exact (covers_saved hb).2 hcovers

theorem saveFrame_kept (hg : OffStack g k.sp) (hs : s.sp = k.sp - 96#64) (vs : List Word) (hvs : vs.length = 34) :
    Kept g k.sp s.memory (storeWords s.memory (s.sp - 272#64) vs) := by
  intro b hb
  refine storeWords_of_not_covers ?_
  rw [hvs]
  exact hb.off_frame hg hs

theorem Resumable.kept (h : Resumable g k s) {m : ByteMemory.Memory 64} (hm : Kept g k.sp s.memory m) :
    loadWord m g = k.sp - 96#64 ∧ ∀ i, i < 12 → loadWord m (k.sp - 96#64 + BitVec.ofNat 64 (8 * i)) = k.x (19 + i) := by
  refine ⟨?_, fun i hi => ?_⟩
  · rw [loadWord_congr fun b hb => hm b (Or.inl hb), h.saved]
  · rw [loadWord_congr fun b hb => hm b (Or.inr (covers_word (n := 12) hi (by decide) hb)), h.words i hi]

theorem Resumable.aligned (haligned : k.sp.toNat % 16 = 0) (h : Resumable g k s) : s.sp.toNat % 16 = 0 := by
  rw [h.sp]
  exact sub_aligned haligned (by decide) (by decide)

/-- An exception leaves the kernel's bytes alone, and its frame is apart from them. -/
theorem Resumable.frame_apart (hg : OffStack g k.sp) (haligned : k.sp.toNat % 16 = 0) (h : Resumable g k s) :
    ∃ s₁, exec saveFrame s = some s₁ ∧ Kept g k.sp s.memory s₁.memory ∧
      ∀ b, KernelBytes g k.sp b → ¬ ByteMemory.Covers s₁.sp 272 b := by
  obtain ⟨s₁, hexec, hsp, -, hmemory⟩ := exec_saveFrame (h.aligned haligned)
  refine ⟨s₁, hexec, ?_, fun b hb => ?_⟩
  · rw [hmemory]
    exact saveFrame_kept hg h.sp _ (length_frameWords s)
  · rw [hsp]
    exact hb.off_frame hg h.sp

/-- What the handler does with the kernel's bytes in place. -/
theorem Resumable.handled (hg : OffStack g k.sp) (haligned : k.sp.toNat % 16 = 0) (h : Resumable g k s) {handled : State}
    (hh : Handles g k.sp s handled) : loadWord handled.memory g = k.sp - 96#64 ∧
      ∀ i, i < 12 → loadWord handled.memory (k.sp - 96#64 + BitVec.ofNat 64 (8 * i)) = k.x (19 + i) := by
  obtain ⟨s₁, hexec, hkept⟩ := hh
  obtain ⟨s₁', hexec', hframe, -⟩ := h.frame_apart hg haligned
  rw [hexec] at hexec'
  cases hexec'
  refine h.kept fun b hb => ?_
  rw [hkept b hb, hframe b hb]

theorem Resumable.step (hg : OffStack g k.sp) (haligned : k.sp.toNat % 16 = 0) (h : Resumable g k s) {e : Excursion}
    (hok : ExcursionOk g k.sp s e) : Resumable g k (excursionStep s e) := by
  cases e with
  | el0 frame memory =>
    obtain ⟨hsaved, hwords⟩ := h.kept hok
    exact ⟨h.sp, hsaved, hwords⟩
  | exception handled =>
    obtain ⟨hh, hsp⟩ := hok
    obtain ⟨hsaved, hwords⟩ := h.handled hg haligned hh
    have hhandled : handled.sp.toNat % 16 = 0 := by
      rw [hsp]
      exact sub_aligned (h.aligned haligned) (by decide) (by decide)
    obtain ⟨s₁, hexec, -, hsp₁, hmemory⟩ := exec_restoreFrame hhandled
    rw [excursionStep, hexec, Option.getD_some]
    refine ⟨?_, hmemory ▸ hsaved, hmemory ▸ hwords⟩
    rw [hsp₁, hsp, BitVec.sub_add_cancel, h.sp]

/-- The address that `ADRP` and `:lo12:` make together. -/
theorem page_add (g : Word) : pageWord g + BitVec.ofNat 64 (lo12 g) = g := BitVec.sub_add_cancel ..

/-- EL0 starts at `x0` with its stack at `x1`, and the kernel is resumable. -/
theorem exec_el0Enter (hg : OffStack g k.sp) (haligned : k.sp.toNat % 16 = 0) :
    ∃ s₀, exec (el0Enter g) k = some s₀ ∧ s₀.sys .elrEl1 = k.x 0 ∧ s₀.sys .spEl0 = k.x 1 ∧ s₀.sys .spsrEl1 = 0 ∧
      Resumable g k s₀ := by
  have hsp : (k.sp - 96#64).toNat % 16 = 0 := sub_aligned haligned (by decide) (by decide)
  have haddress : State.address { k with sp := k.sp - 96#64 } .sp 0 = some (k.sp - 96#64) := by
    rw [State.address, if_pos hsp, BitVec.add_zero]
  have hcode : el0Enter g = .subSp 96 :: (spill 19 6 .sp 0 ++ [.adrp 2 (pageWord g), .movFromSp 3, .str 3 (.x 2) (lo12 g),
    .msr .elrEl1 0, .msr .spEl0 1, .msr .spsrEl1 31, .barrier]) := rfl
  refine ⟨{
    x := Function.update (Function.update k.x 2 (pageWord g)) 3 (k.sp - 96#64)
    sp := k.sp - 96#64
    sys := Function.update (Function.update (Function.update k.sys .elrEl1 (k.x 0)) .spEl0 (k.x 1)) .spsrEl1 0
    memory := storeWord (storeWords k.memory (k.sp - 96#64) (k.registers 19 12)) g (k.sp - 96#64) }, ?_, rfl, rfl, rfl, rfl, ?_, ?_⟩
  · rw [hcode, exec, step, Option.bind_some, exec_append, exec_spill haddress 19 6, Option.bind_some]
    simp only [exec, step, State.write, State.read, State.address, Option.map_some, Option.bind_some]
    rw [show (Function.update (Function.update k.x 2 (pageWord g)) 3 (k.sp - BitVec.ofNat 64 96)) 2 = pageWord g from rfl, page_add]
    rfl
  · exact loadWord_storeWord
  · intro i hi
    have hoff : ∀ b, ByteMemory.Covers (k.sp - 96#64 + BitVec.ofNat 64 (8 * i)) 8 b → ¬ ByteMemory.Covers g 8 b := fun b hb hgb =>
      hg b hgb (covers_saved (covers_word (n := 12) hi (by decide) hb)).1
    dsimp only
    rw [loadWord_congr fun b hb => storeWord_of_not_covers (hoff b hb)]
    refine loadWord_storeWords (by rw [length_registers]; decide) ?_
    rw [registers_getElem? k 19 hi, State.read, if_neg (by omega)]

/-- The kernel goes on with the registers it called `lettuce_el0_enter` with, and `x0`. -/
theorem exec_resumeKernel (haligned : k.sp.toNat % 16 = 0) (hsaved : loadWord s.memory g = k.sp - 96#64)
    (hwords : ∀ i, i < 12 → loadWord s.memory (k.sp - 96#64 + BitVec.ofNat 64 (8 * i)) = k.x (19 + i)) :
    ∃ s₁, exec (resumeKernel g) s = some s₁ ∧ s₁.x 0 = s.x 0 ∧ s₁.sp = k.sp ∧ s₁.memory = s.memory ∧
      ∀ r, 19 ≤ r → r ≤ 30 → s₁.x r = k.x r := by
  have hsp : (k.sp - 96#64).toNat % 16 = 0 := sub_aligned haligned (by decide) (by decide)
  let t : State := { s with
    x := Function.update (Function.update s.x 2 (pageWord g)) 3 (k.sp - 96#64)
    sp := k.sp - 96#64 }
  have hfirst : exec [.adrp 2 (pageWord g), .ldr 3 (.x 2) (lo12 g), .movToSp 3] s = some t := by
    simp only [exec, step, State.write, State.read, State.address, Option.map_some, Option.bind_some, Function.update_self, page_add,
      hsaved]
    rfl
  have haddress : t.address .sp 0 = some (k.sp - 96#64) := by
    rw [State.address, if_pos hsp, BitVec.add_zero]
  have hfill := exec_fill haddress 19 6 fun _ h => by cases h
  have hcode : resumeKernel g = [.adrp 2 (pageWord g), .ldr 3 (.x 2) (lo12 g), .movToSp 3] ++ (fill 19 6 .sp 0 ++ [.addSp 96]) := rfl
  rw [hcode, exec_append, hfirst, Option.bind_some, exec_append, hfill, Option.bind_some]
  refine ⟨_, rfl, rfl, BitVec.sub_add_cancel .., rfl, fun r hlow hhigh => ?_⟩
  have hword := hwords (r - 19) (by omega)
  rw [Nat.add_sub_cancel' hlow] at hword
  simp only [show 19 ≤ r ∧ r < 19 + 2 * 6 by omega, and_self, if_true]
  exact hword

/-! ## An IRQ on the way in -/

/-- `vector_irq_el1` around a handler, with the return address and the state that the processor stores first. -/
def irqEl1 (pc pstate : Word) (handler : State → State) (s : State) : Option State :=
  (exec saveFrame { s with sys := Function.update (Function.update s.sys .elrEl1 pc) .spsrEl1 pstate }).bind fun s₁ =>
    exec restoreFrame (handler s₁)

/-- `lettuce_arch_irq_el1_handler` comes back with its stack pointer and leaves the frame alone (cpu.c:576). -/
def LeavesFrame (handler : State → State) : Prop :=
  ∀ s, (handler s).sp = s.sp ∧ ∀ b, ByteMemory.Covers s.sp 272 b → (handler s).memory b = s.memory b

theorem frameAt_congr {m m' : ByteMemory.Memory 64} {p : Word} (h : ∀ b, ByteMemory.Covers p 272 b → m b = m' b) :
    frameAt m p = frameAt m' p := by
  have hword : ∀ i offset, offset = 8 * i → i < 34 →
      loadWord m (p + BitVec.ofNat 64 offset) = loadWord m' (p + BitVec.ofNat 64 offset) := by
    rintro i offset rfl hi
    exact loadWord_congr fun b hb => h b (covers_word (n := 34) hi (by decide) hb)
  have hx : ∀ r : Fin 30, loadWord m (p + BitVec.ofNat 64 (8 * r.val)) = loadWord m' (p + BitVec.ofNat 64 (8 * r.val)) := fun r =>
    hword r.val _ rfl (by omega)
  have hlr := hword 30 240 rfl (by decide)
  have helr := hword 31 248 rfl (by decide)
  have hspsr := hword 32 256 rfl (by decide)
  have hsp := hword 33 264 rfl (by decide)
  rw [frameAt, hlr, helr, hspsr, hsp, funext hx, frameAt]

/-- An IRQ gives everything back but ELR_EL1 and SPSR_EL1, which now point at the interrupted code. -/
theorem irqEl1_spec (haligned : s.sp.toNat % 16 = 0) (pc pstate : Word) {handler : State → State} (hh : LeavesFrame handler) :
    ∃ s₁, irqEl1 pc pstate handler s = some s₁ ∧ s₁.sp = s.sp ∧ (∀ r, r ≤ 30 → s₁.x r = s.x r) ∧
      s₁.sys .elrEl1 = pc ∧ s₁.sys .spsrEl1 = pstate ∧ s₁.sys .spEl0 = s.sys .spEl0 := by
  let taken : State := { s with sys := Function.update (Function.update s.sys .elrEl1 pc) .spsrEl1 pstate }
  obtain ⟨s₁, hsave, hsp, -, hmemory⟩ := exec_saveFrame (s := taken) haligned
  obtain ⟨htop, hframe⟩ := hh s₁
  have hbelow : (s₁.sp).toNat % 16 = 0 := by
    rw [hsp]
    exact sub_aligned haligned (by decide) (by decide)
  obtain ⟨s₂, hrestore, hregisters, hsp₂, -⟩ := exec_restoreFrame (s := handler s₁) (htop ▸ hbelow)
  have hsame : el0Registers s₂ = el0Registers taken := by
    rw [hregisters, htop, frameAt_congr hframe, hmemory, hsp, frameAt_storeWords]
  have hx : ∀ r, (h : r < 30) → s₂.x r = s.x r := fun r h => congrFun (congrArg TrapFrame.x hsame) ⟨r, h⟩
  have hlr : s₂.x 30 = s.x 30 := congrArg TrapFrame.lr hsame
  refine ⟨s₂, ?_, ?_, fun r hr => ?_, congrArg TrapFrame.elr hsame, congrArg TrapFrame.spsr hsame, congrArg TrapFrame.spEl0 hsame⟩
  · rw [irqEl1, hsave, Option.bind_some, hrestore]
  · rw [hsp₂, htop, hsp, BitVec.sub_add_cancel]
  · rcases Nat.lt_or_eq_of_le hr with hlt | rfl
    · exact hx r hlt
    · exact hlr

/-- `lettuce_el0_enter`, interrupted once after `n` instructions. -/
def interruptedEnter (g start pstate : Word) (handler : State → State) (n : Nat) (k : State) : Option State :=
  (exec ((el0Enter g).take n) k).bind fun s =>
    (irqEl1 (start + BitVec.ofNat 64 (4 * n)) pstate handler s).bind (exec ((el0Enter g).drop n))

/-- The part of `lettuce_el0_enter` that sets no system register, and the part that does. -/
def el0EnterSaves (g : Word) : List Instr :=
  [.subSp 96, .stp 19 20 .sp 0, .stp 21 22 .sp 16, .stp 23 24 .sp 32, .stp 25 26 .sp 48, .stp 27 28 .sp 64, .stp 29 30 .sp 80,
    .adrp 2 (pageWord g), .movFromSp 3, .str 3 (.x 2) (lo12 g)]

def el0EnterSets : List Instr := [.msr .elrEl1 0, .msr .spEl0 1, .msr .spsrEl1 31, .barrier]

theorem el0Enter_eq (g : Word) : el0Enter g = el0EnterSaves g ++ el0EnterSets := rfl

theorem el0EnterSaves_keeps (g : Word) : ∀ i ∈ el0EnterSaves g, i.Steady ∧ 0 ∉ i.writes ∧ 1 ∉ i.writes := by
  intro i hi
  simp only [el0EnterSaves, List.mem_cons, List.not_mem_nil, or_false] at hi
  rcases hi with rfl | rfl | rfl | rfl | rfl | rfl | rfl | rfl | rfl | rfl
  all_goals simp [Instr.Steady, Instr.writes]

/-- A stretch of the first part that is executed after the registers of the call were restored. -/
theorem exec_saves (haligned : s.sp.toNat % 16 = 0) {p : List Instr} (hp : ∀ i ∈ p, i ∈ el0EnterSaves g) :
    ∃ t, exec p s = some t ∧ t.sp.toNat % 16 = 0 ∧ t.x 0 = s.x 0 ∧ t.x 1 = s.x 1 := by
  obtain ⟨t, hexec, htop⟩ := exec_steady haligned fun i hi => (el0EnterSaves_keeps g i (hp i hi)).1
  exact ⟨t, hexec, htop, exec_x hexec fun i hi => (el0EnterSaves_keeps g i (hp i hi)).2.1,
    exec_x hexec fun i hi => (el0EnterSaves_keeps g i (hp i hi)).2.2⟩

end

/-! ## Results -/

section
variable (s k : State) (g : Word)

/-- **The vectors hand over the registers**: the handler gets a frame with exactly the registers of the interrupted code,
below the stack pointer, with nothing else in memory changed; whatever it leaves there is what the ERET
resumes, with the stack pointer back in place. If it leaves the frame alone, the interrupted code goes on as it was. -/
theorem vectors_transfer_registers (haligned : s.sp.toNat % 16 = 0) :
    ∃ s₁, exec saveFrame s = some s₁ ∧ s₁.x 0 = s₁.sp ∧ frameAt s₁.memory s₁.sp = el0Registers s ∧
      (∀ b, ¬ ByteMemory.Covers (s.sp - 272#64) 272 b → s₁.memory b = s.memory b) ∧
      ∀ s₂, s₂.sp = s₁.sp → ∃ s₃, exec restoreFrame s₂ = some s₃ ∧ el0Registers s₃ = frameAt s₂.memory s₁.sp ∧
        s₃.sp = s.sp ∧ s₃.memory = s₂.memory ∧
        ((∀ b, ByteMemory.Covers s₁.sp 272 b → s₂.memory b = s₁.memory b) → el0Registers s₃ = el0Registers s) := by
  obtain ⟨s₁, hexec, hsp, hx0, hmemory⟩ := exec_saveFrame haligned
  have hframe : frameAt s₁.memory s₁.sp = el0Registers s := by rw [hmemory, hsp, frameAt_storeWords]
  refine ⟨s₁, hexec, hx0, hframe, fun b hb => ?_, fun s₂ hsp₂ => ?_⟩
  · rw [hmemory]
    exact storeWords_of_not_covers (by rwa [length_frameWords])
  · have hbelow : s₂.sp.toNat % 16 = 0 := by
      rw [hsp₂, hsp]
      exact sub_aligned haligned (by decide) (by decide)
    obtain ⟨s₃, hrestore, hregisters, hsp₃, hmemory₃⟩ := exec_restoreFrame hbelow
    refine ⟨s₃, hrestore, by rw [hregisters, hsp₂], by rw [hsp₃, hsp₂, hsp, BitVec.sub_add_cancel], hmemory₃, fun hleft => ?_⟩
    rw [hregisters, hsp₂, frameAt_congr hleft, hframe]

/-- A stack of the kernel. -/
def exampleCpu : State := { x := fun r => BitVec.ofNat 64 r, sp := 0x40100000, sys := fun _ => 0, memory := fun _ => 0 }

theorem vectors_transfer_registers_example :
    ∃ s₁, exec saveFrame exampleCpu = some s₁ ∧ frameAt s₁.memory s₁.sp = el0Registers exampleCpu := by
  obtain ⟨s₁, hexec, -, hframe, -⟩ := vectors_transfer_registers exampleCpu (by decide)
  exact ⟨s₁, hexec, hframe⟩

/-- **Excursions come back**: `lettuce_el0_enter` starts EL0 at the given address and stack, and after any run of EL0 code and
exceptions that leave the kernel's own bytes alone, `lettuce_el0_resume_kernel` called from the handler of a last exception
returns to the caller of `lettuce_el0_enter`, with the status in `x0` and the stack pointer, `x19`..`x29` and the return address of
that call. The frame of an exception never overlaps these bytes. -/
theorem excursions_come_back (hg : OffStack g k.sp) (haligned : k.sp.toNat % 16 = 0) :
    ∃ s₀, exec (el0Enter g) k = some s₀ ∧ s₀.sys .elrEl1 = k.x 0 ∧ s₀.sys .spEl0 = k.x 1 ∧ s₀.sys .spsrEl1 = 0 ∧
      ∀ h s, Run (ExcursionOk g k.sp) excursionStep s₀ h s →
        (∃ s₁, exec saveFrame s = some s₁ ∧ Kept g k.sp s.memory s₁.memory ∧
          ∀ b, KernelBytes g k.sp b → ¬ ByteMemory.Covers s₁.sp 272 b) ∧
        ∀ handled, Handles g k.sp s handled →
          ∃ s', exec (resumeKernel g) handled = some s' ∧ s'.x 0 = handled.x 0 ∧ s'.sp = k.sp ∧
            ∀ r, 19 ≤ r → r ≤ 30 → s'.x r = k.x r := by
  obtain ⟨s₀, hexec, helr, hsp, hspsr, hresumable⟩ := exec_el0Enter hg haligned
  refine ⟨s₀, hexec, helr, hsp, hspsr, fun h s r => ?_⟩
  have hs : Resumable g k s := r.invariant (I := Resumable g k) hresumable fun _ _ hok hs => hs.step hg haligned hok
  refine ⟨hs.frame_apart hg haligned, fun handled hh => ?_⟩
  obtain ⟨hsaved, hwords⟩ := hs.handled hg haligned hh
  obtain ⟨s', hresume, hx0, hsp', -, hregisters⟩ := exec_resumeKernel haligned hsaved hwords
  exact ⟨s', hresume, hx0, hsp', hregisters⟩

/-- What a service leaves in its registers. -/
def exampleFrame : TrapFrame :=
  { x := fun r => BitVec.ofNat 64 (100 + r.val), lr := 0x1040, elr := 0x1020, spsr := 0x60000000, spEl0 := 0x80000ff0 }

/-- With `g_el1_saved_sp` at 0x40090000: the service changes all its registers and a byte, an exception is handled that clobbers
the registers of the kernel, the service goes on as it was, and the next exception ends the excursion. -/
theorem excursions_come_back_example :
    ∃ s₀ h s, exec (el0Enter 0x40090000) exampleCpu = some s₀ ∧
      Run (ExcursionOk 0x40090000 exampleCpu.sp) excursionStep s₀ h s ∧ h.length = 2 ∧ el0Registers s = exampleFrame ∧
      ∃ s₁ s', exec saveFrame s = some s₁ ∧ exec (resumeKernel 0x40090000) s₁ = some s' ∧ s'.sp = 0x40100000 ∧
        s'.x 19 = 19 ∧ s'.x 30 = 30 := by
  have hg : OffStack 0x40090000 exampleCpu.sp := by
    intro b hb hcovers
    have hlow : (b - 0x40090000#64).toNat < 8 := hb
    have hhigh : (b - 0x400ffe90#64).toNat < 368 := hcovers
    bv_omega
  have haligned : exampleCpu.sp.toNat % 16 = 0 := by decide
  obtain ⟨s₀, hexec, -, -, -, hback⟩ := excursions_come_back exampleCpu 0x40090000 hg haligned
  obtain ⟨s₀', hexec', -, -, -, hresumable⟩ := exec_el0Enter hg haligned
  rw [hexec] at hexec'
  cases hexec'
  -- the stretch of EL0
  let stretch : Excursion := .el0 exampleFrame (Function.update s₀.memory 0x41000010 5)
  have hstretch : ExcursionOk 0x40090000 exampleCpu.sp s₀ stretch := by
    intro b hb
    refine Function.update_of_ne ?_ ..
    rintro rfl
    rcases hb with hb | hb
    · have hlow : (0x41000010#64 - 0x40090000#64).toNat < 8 := hb
      exact absurd hlow (by decide)
    · have hhigh : (0x41000010#64 - 0x400fffa0#64).toNat < 96 := hb
      exact absurd hhigh (by decide)
  have hfirst : Resumable 0x40090000 exampleCpu (excursionStep s₀ stretch) := hresumable.step hg haligned hstretch
  -- the handled exception
  obtain ⟨t, hsave, hsp, -, hmemory⟩ := exec_saveFrame (hfirst.aligned haligned)
  let handled : State := { t with x := fun _ => 0 }
  have hhandled : handled.sp.toNat % 16 = 0 := by
    rw [show handled.sp = t.sp from rfl, hsp]
    exact sub_aligned (hfirst.aligned haligned) (by decide) (by decide)
  obtain ⟨s, hrestore, hregisters, -⟩ := exec_restoreFrame hhandled
  have hstep : excursionStep (excursionStep s₀ stretch) (.exception handled) = s := by
    show (exec restoreFrame handled).getD handled = s
    rw [hrestore, Option.getD_some]
  have hok : ExcursionOk 0x40090000 exampleCpu.sp (excursionStep s₀ stretch) (.exception handled) :=
    ⟨⟨t, hsave, fun _ _ => rfl⟩, hsp⟩
  have r := (Run.start.next stretch hstretch).next (.exception handled) hok
  rw [hstep] at r
  have hsame : el0Registers s = exampleFrame := by
    rw [hregisters, show frameAt handled.memory handled.sp = frameAt t.memory t.sp from rfl, hmemory, hsp, frameAt_storeWords]
    exact el0Registers_withEl0 ..
  -- the last one
  obtain ⟨⟨s₁, hlast, -⟩, hresume⟩ := hback _ s r
  obtain ⟨s', hreturn, -, htop, hx⟩ := hresume s₁ ⟨s₁, hlast, fun _ _ => rfl⟩
  exact ⟨s₀, _, s, hexec, r, rfl, hsame, s₁, s', hlast, hreturn, htop, hx 19 (by decide) (by decide), hx 30 (by decide) (by decide)⟩

/-- **The window of `lettuce_el0_enter`**: an IRQ taken before the write to ELR_EL1 is not noticed. One taken after it sends the
ERET back into `lettuce_el0_enter` itself: to EL0 at a kernel address if SPSR_EL1 is still written after the IRQ, and to EL1
otherwise. The stack pointer of EL0 is right in any case. -/
theorem el0_enter_interrupted (haligned : k.sp.toNat % 16 = 0) (start pstate : Word) {handler : State → State}
    (hh : LeavesFrame handler) {n : Nat} (hn : n ≤ 14) :
    ∃ s₀, interruptedEnter g start pstate handler n k = some s₀ ∧ s₀.sys .spEl0 = k.x 1 ∧
      s₀.sys .elrEl1 = (if n ≤ 10 then k.x 0 else start + BitVec.ofNat 64 (4 * n)) ∧
      s₀.sys .spsrEl1 = (if n ≤ 12 then 0 else pstate) := by
  have hlength : (el0EnterSaves g).length = 10 := rfl
  rcases Nat.lt_or_ge 10 n with hlate | hearly
  · -- the registers are set up to instruction `j` of the second part
    obtain ⟨j, rfl⟩ : ∃ j, n = (el0EnterSaves g).length + j := ⟨n - 10, by rw [hlength]; omega⟩
    obtain ⟨t, hexec, htop, hx0, hx1⟩ := exec_saves (g := g) haligned fun i hi => hi
    rw [interruptedEnter, el0Enter_eq, List.take_append, List.drop_append, exec_append, List.take_of_length_le (by omega), hexec,
      Option.bind_some, List.drop_eq_nil_of_le (by omega), List.nil_append, Nat.add_sub_cancel_left]
    rw [hlength] at hn hlate
    have hcases : j = 1 ∨ j = 2 ∨ j = 3 ∨ j = 4 := by omega
    have hbefore : ∃ w, exec (el0EnterSets.take j) t = some w ∧ w.sp = t.sp ∧ w.x = t.x ∧ (2 ≤ j → w.sys .spEl0 = t.x 1) := by
      rcases hcases with rfl | rfl | rfl | rfl
      · exact ⟨_, rfl, rfl, rfl, fun h => absurd h (by decide)⟩
      all_goals exact ⟨_, rfl, rfl, rfl, fun _ => rfl⟩
    obtain ⟨w, hset, hwsp, hwx, hwsp0⟩ := hbefore
    obtain ⟨u, hirq, -, hux, helr, hspsr, husp0⟩ :=
      irqEl1_spec (hwsp ▸ htop) (start + BitVec.ofNat 64 (4 * ((el0EnterSaves g).length + j))) pstate hh
    rw [hset, Option.bind_some, hirq, Option.bind_some, hlength]
    have hu1 : u.x 1 = k.x 1 := by rw [hux 1 (by omega), hwx, hx1]
    rcases hcases with rfl | rfl | rfl | rfl
    · exact ⟨_, rfl, hu1, helr, rfl⟩
    · exact ⟨_, rfl, husp0.trans ((hwsp0 (by decide)).trans hx1), helr, rfl⟩
    · exact ⟨_, rfl, husp0.trans ((hwsp0 (by decide)).trans hx1), helr, hspsr⟩
    · exact ⟨_, rfl, husp0.trans ((hwsp0 (by decide)).trans hx1), helr, hspsr⟩
  · -- the second part runs with `x0` and `x1` as they were
    obtain ⟨t, hexec, htop, hx0, hx1⟩ := exec_saves (g := g) (s := k) (p := (el0EnterSaves g).take n) haligned
      fun i hi => List.mem_of_mem_take hi
    obtain ⟨u, hirq, husp, hux, -, -, -⟩ := irqEl1_spec htop (start + BitVec.ofNat 64 (4 * n)) pstate hh
    obtain ⟨v, hrest, -, hv0, hv1⟩ := exec_saves (g := g) (s := u) (p := (el0EnterSaves g).drop n) (husp ▸ htop)
      fun i hi => List.mem_of_mem_drop hi
    rw [interruptedEnter, el0Enter_eq, List.take_append_of_le_length (by omega), List.drop_append_of_le_length (by omega), hexec,
      Option.bind_some, hirq, Option.bind_some, exec_append, hrest, Option.bind_some]
    refine ⟨_, rfl, ?_, ?_, ?_⟩
    · exact hv1.trans ((hux 1 (by omega)).trans hx1)
    · rw [if_pos hearly]
      exact hv0.trans ((hux 0 (by omega)).trans hx0)
    · rw [if_pos (by omega)]
      rfl

/-- An IRQ just before the ERET, with the code at 0x40081000: the ERET comes back to itself, in EL1. -/
theorem el0_enter_interrupted_eret :
    ∃ s₀, interruptedEnter 0x40090000 0x40081000 0x5 id 14 exampleCpu = some s₀ ∧ s₀.sys .elrEl1 = 0x40081038 ∧
      s₀.sys .spsrEl1 = 0x5 := by
  have hhandler : LeavesFrame id := fun _ => ⟨rfl, fun _ _ => rfl⟩
  obtain ⟨s₀, hexec, -, helr, hspsr⟩ := el0_enter_interrupted exampleCpu 0x40090000 (by decide) 0x40081000 0x5
    hhandler (Nat.le_refl 14)
  exact ⟨s₀, hexec, helr, hspsr⟩

/-- The fields of a `LettuceElevatorDescriptor` that the assembly reads. -/
def descriptorAt (m : ByteMemory.Memory 64) (p : Word) : ElevatorDescriptor where
  targetEntryPc := loadWord m (p + BitVec.ofNat 64 0)
  targetSpEl0 := loadWord m (p + BitVec.ofNat 64 8)
  targetTtbr0Val := loadWord m (p + BitVec.ofNat 64 16)

/-- **The elevator assembly**: with the descriptor at `x0` and the trap frame at `x1`, wherever they are, it does what
`Arch.elevatorAsmTransition` says to TTBR0 and the frame, and touches no other byte, no other system register, no
callee-saved register and not the stack pointer. -/
theorem elevator_assembly (m : Mmu) :
    ∃ s', exec elevatorTransition s = some s' ∧
      s'.sys .ttbr0El1 = (Arch.elevatorAsmTransition (descriptorAt s.memory (s.x 0)) m (frameAt s.memory (s.x 1))).1.ttbr0 ∧
      frameAt s'.memory (s.x 1) = (Arch.elevatorAsmTransition (descriptorAt s.memory (s.x 0)) m (frameAt s.memory (s.x 1))).2 ∧
      (∀ b, ¬ ByteMemory.Covers (s.x 1 + 248#64) 24 b → s'.memory b = s.memory b) ∧
      (∀ r, r ≠ .ttbr0El1 → s'.sys r = s.sys r) ∧ (∀ r, 5 ≤ r → s'.x r = s.x r) ∧ s'.sp = s.sp := by
  have hwords : ∀ e p : Word, storeWord (storeWord (storeWord s.memory (s.x 1 + BitVec.ofNat 64 248) e) (s.x 1 + BitVec.ofNat 64 256) 0)
      (s.x 1 + BitVec.ofNat 64 264) p = storeWords s.memory (s.x 1 + 248#64) [e, 0, p] := by
    intro e p
    simp only [storeWords, BitVec.add_assoc]
    rfl
  generalize hdescriptor : descriptorAt s.memory (s.x 0) = d
  have hentry : loadWord s.memory (s.x 0 + BitVec.ofNat 64 0) = d.targetEntryPc := congrArg ElevatorDescriptor.targetEntryPc hdescriptor
  have hstack : loadWord s.memory (s.x 0 + BitVec.ofNat 64 8) = d.targetSpEl0 := congrArg ElevatorDescriptor.targetSpEl0 hdescriptor
  have httbr : loadWord s.memory (s.x 0 + BitVec.ofNat 64 16) = d.targetTtbr0Val := congrArg ElevatorDescriptor.targetTtbr0Val hdescriptor
  have hexec : exec elevatorTransition s = some { s with
      x := Function.update (Function.update (Function.update s.x 2 d.targetTtbr0Val) 3 d.targetEntryPc) 4 d.targetSpEl0
      sys := Function.update s.sys .ttbr0El1 d.targetTtbr0Val
      memory := storeWords s.memory (s.x 1 + 248#64) [d.targetEntryPc, 0, d.targetSpEl0] } := by
    rw [← hwords, ← hentry, ← hstack, ← httbr]
    rfl
  refine ⟨_, hexec, rfl, ?_, fun b hb => storeWords_of_not_covers hb, fun r hr => Function.update_of_ne hr _ _, fun r hr => ?_, rfl⟩
  · -- the first 31 words of the frame come before the three that are stored
    have hbefore : ∀ i, i < 31 → ∀ offset, offset = 8 * i →
        loadWord (storeWords s.memory (s.x 1 + 248#64) [d.targetEntryPc, 0, d.targetSpEl0]) (s.x 1 + BitVec.ofNat 64 offset) =
          loadWord s.memory (s.x 1 + BitVec.ofNat 64 offset) := by
      rintro i hi offset rfl
      refine loadWord_congr fun b hb => storeWords_of_not_covers fun hcovers => ?_
      have hpart : ByteMemory.Covers (s.x 1) (8 * 31) b := covers_word hi (by decide) hb
      exact ByteMemory.not_covers_of_covers_add (k := 248#64) (n := 24) (by decide) hcovers hpart
    have hstored : ∀ i v, [d.targetEntryPc, 0, d.targetSpEl0][i]? = some v → ∀ offset, s.x 1 + BitVec.ofNat 64 offset =
        s.x 1 + 248#64 + BitVec.ofNat 64 (8 * i) →
        loadWord (storeWords s.memory (s.x 1 + 248#64) [d.targetEntryPc, 0, d.targetSpEl0]) (s.x 1 + BitVec.ofNat 64 offset) = v := by
      intro i v hv offset haddress
      have hlength : 8 * [d.targetEntryPc, 0, d.targetSpEl0].length ≤ 2 ^ 64 := by
        rw [show [d.targetEntryPc, 0, d.targetSpEl0].length = 3 from rfl]
        decide
      rw [haddress]
      exact loadWord_storeWords hlength hv
    have hx : ∀ r : Fin 30, loadWord (storeWords s.memory (s.x 1 + 248#64) [d.targetEntryPc, 0, d.targetSpEl0])
        (s.x 1 + BitVec.ofNat 64 (8 * r.val)) = loadWord s.memory (s.x 1 + BitVec.ofNat 64 (8 * r.val)) := fun r =>
      hbefore r.val (by omega) _ rfl
    have hlr := hbefore 30 (by decide) 240 rfl
    have helr := hstored 0 d.targetEntryPc rfl 248 (by rw [BitVec.add_assoc]; rfl)
    have hspsr := hstored 1 0 rfl 256 (by rw [BitVec.add_assoc]; rfl)
    have hsp := hstored 2 d.targetSpEl0 rfl 264 (by rw [BitVec.add_assoc]; rfl)
    dsimp only
    rw [frameAt, hlr, helr, hspsr, hsp, funext hx]
    rfl
  · dsimp only
    rw [Function.update_of_ne (show r ≠ 4 by omega), Function.update_of_ne (show r ≠ 3 by omega),
      Function.update_of_ne (show r ≠ 2 by omega)]

end

end Lettuce
