import LettuceKernel.KernelAccesses
import LettuceKernel.Syscalls
import LettuceKernel.CallUnwinding
import LettuceKernel.Lib.TranslationCache
/-!
# The board: the machine with memory, page tables and TLB

| here | there |
| --- | --- |
| `activeAsid`         | `lettuce_mmu_active_asid` (mmu.c:475) |
| `domainAsid`         | the `asid` column of `arch_domains` (mmu.c:171) |
| `BoardEvent.invalidateAsid`, `.invalidateDomain`, `.invalidateAll` | `lettuce_mmu_invalidate_asid` (:416), `_domain` (:442), `_all` (:451) |
| `Board.boot`         | the state `lettuce_mmu_init` (:497) leaves, the TLB just invalidated |
| `userAccesses`       | the loads and stores through a caller's pointer in sys.c and fd.c |
| `Board.syscall`      | SVC #5 (cpu.c:441-469) with these accesses translated |

EL0 loads and stores single bytes at any time it runs; a larger access is several of them. The hardware may walk
the current tables and fill or drop TLB entries at any time. System calls run on the tables
of their caller. A page fault in one goes to `lettuce_arch_sync_el1_handler` (cpu.c:217), which halts unless a
fault is expected. Device registers answer with what the event says, and stores to them leave memory alone.

The memory is that of the pages of `Layout`; the kernel's own variables are the fields of `Machine`.
-/

namespace Lettuce

open Runs Translation TranslationCache

def cacheFormat : Format Reg Leaf where
  isGlobal := Leaf.isGlobal
  samePage := Leaf.samePage

/-- Bits 63 to 48 of TTBR0. -/
def activeAsid (s : Mmu) : BitVec 16 := (s.ttbr0 >>> 48).setWidth 16

def domainAsid (d : DomainId) : Option (BitVec 16) :=
  if d = domainA then some 1 else if d = domainB then some 2 else if d = domainC then some 3 else none

structure Board where
  machine : Machine
  memory : ByteMemory.Memory 64
  tlb : Cache (BitVec 16) Reg Leaf
  console : List (BitVec 8)
  fds : FdTable
  frequency : BitVec 64

inductive BoardEvent where
  | machine (e : MachineEvent)
  | syscall (frame : TrapFrame) (counter : BitVec 64) (device : ByteMemory.Memory 64)
  | load (va : Reg)
  | store (va : Reg) (value : BitVec 8)
  | tlbFill (va : Reg)
  | tlbEvict (n : Nat)
  | invalidateAsid (asid : BitVec 16)
  | invalidateDomain (domain : DomainId)
  | invalidateAll

/-- `length` bytes from `address` on. -/
structure UserAccess where
  address : Reg
  length : Nat
  write : Bool
deriving DecidableEq, Repr

/-- In the order in which the handler makes them. `nanosleep` reads `tv_nsec` before it tests the pointer. -/
def userAccesses (v : Services) (frame : TrapFrame) : List UserAccess :=
  match syscallOf frame.sysNo with
  | some .write =>
    if frame.arg2 = 0 ∨ frame.arg1 = 0 ∨ inSupervisorMemory frame.arg1 then []
    else
      match (fdGet v.fds (frame.arg0.setWidth 32)).bind fun desc => desc.ops.bind FdOps.write with
      | none => []
      | some _ => [⟨frame.arg1, frame.arg2.toNat, false⟩]
  | some .clockGettime =>
    if frame.arg0.setWidth 32 ≠ clockMonotonic ∨ frame.arg1 = 0 ∨ inSupervisorMemory frame.arg1 ∨ v.frequency = 0 then []
    else [⟨frame.arg1, 8, true⟩, ⟨frame.arg1 + nsecOffset, 8, true⟩]
  | some .nanosleep =>
    if frame.arg0 = 0 then []
    else
      let nsec := readWord v.memory (frame.arg0 + nsecOffset)
      ⟨frame.arg0 + nsecOffset, 8, false⟩ ::
        if nsec.toInt < 0 ∨ nsec.toInt ≥ 1000000000 ∨ inSupervisorMemory frame.arg0 then [] else [⟨frame.arg0, 8, false⟩]
  | _ => []

namespace Board

variable (b : Board)

/-- The walk of the tables in memory, from the current TTBR0. -/
def walk (va : Reg) : Option Leaf := walkCached (wordsOf b.memory) b.machine.protection.ttbr0 va

def translate (va : Reg) : Option Leaf :=
  TranslationCache.translate cacheFormat b.walk b.tlb (activeAsid b.machine.protection) va

/-- The physical address of an access, `none` for a fault. -/
def target (access : Leaf → Bool) (va : Reg) : Option Reg :=
  match b.translate va with
  | none => none
  | some leaf => if access leaf then some (leaf.physicalAddress va) else none

def el1Access (write : Bool) : Leaf → Bool := if write then Leaf.el1Write else Leaf.el1Read

/-- What EL1 reads at each address. -/
def view (device : ByteMemory.Memory 64) : ByteMemory.Memory 64 := fun va =>
  match b.target Leaf.el1Read va with
  | none => 0
  | some pa => if inDevice pa then device pa else b.memory pa

def services (counter : BitVec 64) (device : ByteMemory.Memory 64) : Services where
  memory := b.view device
  console := b.console
  fds := b.fds
  counter := counter
  frequency := b.frequency

/-- Byte `i` of an access does not fault. -/
def reaches (a : UserAccess) (i : Nat) : Bool := (b.target (el1Access a.write) (a.address + BitVec.ofNat 64 i)).isSome

def completes (a : UserAccess) : Bool := (List.range a.length).all (b.reaches a)

def putByte (m : ByteMemory.Memory 64) (va : Reg) (value : BitVec 8) : ByteMemory.Memory 64 :=
  match b.target Leaf.el1Write va with
  | none => m
  | some pa => if inDevice pa then m else Function.update m pa value

/-- Perform the stores of an access, with the bytes of `value`. -/
def writeBack (value m : ByteMemory.Memory 64) (a : UserAccess) : ByteMemory.Memory 64 :=
  if a.write then
    (List.range a.length).foldl (fun m i => b.putByte m (a.address + BitVec.ofNat 64 i) (value (a.address + BitVec.ofNat 64 i))) m
  else m

/-- `write` sends byte after byte, up to the first that faults (fd.c:52-59). -/
def printed (v : Services) (frame : TrapFrame) : List (BitVec 8) :=
  match syscallOf frame.sysNo, userAccesses v frame with
  | some .write, a :: _ =>
    ((List.range a.length).takeWhile (b.reaches a)).map fun i => v.memory (a.address + BitVec.ofNat 64 i)
  | _, _ => []

/-- A fault in the handler halts the board after the accesses before it. -/
def syscall (arch : Arch) (frame : TrapFrame) (counter : BitVec 64) (device : ByteMemory.Memory 64) : Board :=
  let v := b.services counter device
  let r := arch.svcSyscall b.machine v frame
  let memory := ((userAccesses v frame).takeWhile b.completes).foldl (b.writeBack r.2.memory) b.memory
  if (userAccesses v frame).all b.completes then { b with machine := r.1, memory, console := r.2.console }
  else { b with machine := { b.machine with exec := .halted }, memory, console := b.console ++ b.printed v frame }

/-- `none` is a data abort. -/
def el0Load (va : Reg) : Option (BitVec 8) := (b.target Leaf.el0Read va).map b.memory

end Board

def boardStep (arch : Arch) (b : Board) : BoardEvent → Board
  | .machine e => { b with machine := arch.machineStep b.machine e }
  | .syscall frame counter device => if b.machine.inEl0 then b.syscall arch frame counter device else b
  | .load _ => b
  | .store va value =>
    if b.machine.inEl0 then
      match b.target Leaf.el0Write va with
      | none => b
      | some pa => { b with memory := Function.update b.memory pa value }
    else b
  | .tlbFill va => { b with tlb := fill b.walk b.tlb (activeAsid b.machine.protection) va }
  | .tlbEvict n => { b with tlb := b.tlb.eraseIdx n }
  | .invalidateAsid asid => { b with tlb := invalidateAsid cacheFormat b.tlb asid }
  | .invalidateDomain domain =>
    match domainAsid domain with
    | none => b
    | some asid => { b with tlb := invalidateAsid cacheFormat b.tlb asid }
  | .invalidateAll => { b with tlb := [] }

/-- With memory as it was before `lettuce_mmu_init`. -/
def Board.boot (L : Layout) (before : Translation.Memory) (frequency : BitVec 64) : Board where
  machine := L.machineBoot
  memory := bytesOf (L.initTables before)
  tlb := []
  console := []
  fds := fdTableInit
  frequency := frequency

/-- Services are registered in the domains that have tables, and no fault is expected during a system call. -/
def BoardOk (b : Board) : BoardEvent → Prop
  | .machine (.kernel (.registryRegister d)) => KnownDomain d.domain
  | .syscall _ _ _ => b.machine.expectingFault = false
  | _ => True

/-! ## The accesses of a system call -/

section
variable {arch : Arch} {mach : Machine} {v v' : Services} {frame : TrapFrame}

/-- `v` and `v'` may differ in bytes that the handler does not read. -/
structure Services.AgreeOn (accesses : List UserAccess) (v v' : Services) : Prop where
  memory : ∀ a ∈ accesses, a.write = false → ∀ i, i < a.length →
    v.memory (a.address + BitVec.ofNat 64 i) = v'.memory (a.address + BitVec.ofNat 64 i)
  console : v.console = v'.console
  fds : v.fds = v'.fds
  counter : v.counter = v'.counter
  frequency : v.frequency = v'.frequency

theorem readWord_congr {m m' : ByteMemory.Memory 64} {p : Reg}
    (h : ∀ i, i < 8 → m (p + BitVec.ofNat 64 i) = m' (p + BitVec.ofNat 64 i)) : readWord m p = readWord m' p := by
  have hload : ByteMemory.load m p 8 = ByteMemory.load m' p 8 := by
    refine ByteMemory.load_congr fun c hc => ?_
    have hbyte := h (c - p).toNat hc
    rwa [BitVec.ofNat_toNat, BitVec.setWidth_eq, BitVec.add_comm, BitVec.sub_add_cancel] at hbyte
  rw [readWord, hload, readWord]

theorem covers_add (p : Reg) {n i : Nat} (hi : i < n) (hn : n ≤ 2 ^ 64) : ByteMemory.Covers p n (p + BitVec.ofNat 64 i) := by
  rw [ByteMemory.Covers, BitVec.add_comm, BitVec.add_sub_cancel, BitVec.toNat_ofNat, Nat.mod_eq_of_lt (by omega)]
  exact hi

theorem userAccesses_congr (hfds : v.fds = v'.fds) (hfrequency : v.frequency = v'.frequency)
    (hnsec : syscallOf frame.sysNo = some .nanosleep → frame.arg0 ≠ 0 →
      readWord v.memory (frame.arg0 + nsecOffset) = readWord v'.memory (frame.arg0 + nsecOffset)) :
    userAccesses v' frame = userAccesses v frame := by
  unfold userAccesses
  cases hcall : syscallOf frame.sysNo with
  | none => rfl
  | some call =>
    cases call with
    | write => simp only [hfds]
    | clockGettime => simp only [hfrequency]
    | nanosleep =>
      dsimp only
      split
      · rfl
      · rename_i hreq
        rw [hnsec hcall hreq]
    | _ => rfl

namespace Services.AgreeOn

/-- What is read decides what else is read. -/
theorem accesses (h : AgreeOn (userAccesses v frame) v v') : userAccesses v' frame = userAccesses v frame := by
  refine userAccesses_congr h.fds h.frequency fun hcall hreq => readWord_congr fun i hi => ?_
  refine h.memory ⟨frame.arg0 + nsecOffset, 8, false⟩ ?_ rfl i hi
  simp only [userAccesses, hcall, if_neg hreq]
  exact List.mem_cons_self ..

end Services.AgreeOn

theorem sysWrite_congr (fd : BitVec 32) (buf count : Reg) (hconsole : v.console = v'.console) (hfds : v.fds = v'.fds)
    (hmem : count ≠ 0 → buf ≠ 0 → inSupervisorMemory buf = false →
      ((fdGet v.fds fd).bind fun desc => desc.ops.bind FdOps.write).isSome →
        ∀ i, i < count.toNat → v.memory (buf + BitVec.ofNat 64 i) = v'.memory (buf + BitVec.ofNat 64 i)) :
    (sysWrite v fd buf count).2 = (sysWrite v' fd buf count).2 ∧
      (sysWrite v fd buf count).1.console = (sysWrite v' fd buf count).1.console := by
  unfold sysWrite
  by_cases hcount : count = 0
  · simp only [hcount, if_true, hconsole, and_self]
  · by_cases hbuf : buf = 0
    · simp only [hcount, hbuf, if_true, if_false, hconsole, and_self]
    · cases hsup : inSupervisorMemory buf with
      | true => simp only [hcount, hbuf, if_true, if_false, hconsole, and_self]
      | false =>
        have hbytes := hmem hcount hbuf hsup
        simp only [hcount, hbuf, if_false, Bool.false_eq_true, ← hfds]
        cases hop : (fdGet v.fds fd).bind fun desc => desc.ops.bind FdOps.write with
        | none => exact ⟨rfl, hconsole⟩
        | some write =>
          obtain ⟨desc, -, hdesc⟩ := Option.bind_eq_some_iff.1 hop
          obtain ⟨ops, -, hops⟩ := Option.bind_eq_some_iff.1 hdesc
          cases ops with
          | consoleIn => cases hops
          | consoleOut =>
            cases hops
            have heq : ByteMemory.bytes v.memory buf count.toNat = ByteMemory.bytes v'.memory buf count.toNat :=
              List.map_congr_left fun i hi => hbytes (by rw [hop]; rfl) i (List.mem_range.1 hi)
            simp only [consoleWriteOp, hbuf, hcount, false_and, if_false, hconsole, heq, and_self]

/-- A call depends on the memory it reads only. -/
theorem svcSyscall_congr (arch : Arch) (mach : Machine) (h : Services.AgreeOn (userAccesses v frame) v v') :
    (arch.svcSyscall mach v frame).1 = (arch.svcSyscall mach v' frame).1 ∧
      (arch.svcSyscall mach v frame).2.console = (arch.svcSyscall mach v' frame).2.console := by
  unfold Arch.svcSyscall
  have hmem := h.memory
  unfold userAccesses at hmem
  cases hcall : syscallOf frame.sysNo with
  | none => exact ⟨rfl, h.console⟩
  | some call =>
    rw [hcall] at hmem
    cases call with
    | write =>
      obtain ⟨hresult, hconsole⟩ := sysWrite_congr (frame.arg0.setWidth 32) frame.arg1 frame.arg2
        h.console h.fds fun hcount hbuf hsup hop i hi => by
          obtain ⟨write, hwrite⟩ := Option.isSome_iff_exists.1 hop
          refine hmem ⟨frame.arg1, frame.arg2.toNat, false⟩ ?_ rfl i hi
          simp only [hcount, hbuf, hsup, hwrite, Bool.false_eq_true, or_self, if_false]
          exact List.mem_singleton_self _
      simp only [quickCall, hresult, hconsole, and_self]
    | read =>
      simp only [quickCall, sysRead, h.fds]
      repeat' split
      all_goals exact ⟨rfl, h.console⟩
    | close => simp only [quickCall, sysClose, h.fds, h.console, and_self]
    | getpid => simp only [quickCall, h.console, and_self]
    | clockGettime =>
      simp only [quickCall, sysClockGettime, h.frequency, h.counter]
      repeat' split
      all_goals exact ⟨rfl, h.console⟩
    | nanosleep =>
      refine ⟨?_, h.console⟩
      simp only [quickCall, Arch.svcNanosleep]
      have hresult : sysNanosleep v mach.sched mach.timerTicks frame.arg0 frame.arg1 (some frame) =
          sysNanosleep v' mach.sched mach.timerTicks frame.arg0 frame.arg1 (some frame) := by
        unfold sysNanosleep
        by_cases hreq : frame.arg0 = 0
        · simp only [hreq, if_true]
        · simp only [if_neg hreq] at hmem ⊢
          have hnsec : readWord v.memory (frame.arg0 + nsecOffset) = readWord v'.memory (frame.arg0 + nsecOffset) :=
            readWord_congr fun i hi => hmem _ (List.mem_cons_self ..) rfl i hi
          rw [← hnsec]
          split
          · rfl
          · rename_i hvalid
            split
            · rfl
            · rename_i hsup
              rw [not_or] at hvalid
              have hsec : readWord v.memory frame.arg0 = readWord v'.memory frame.arg0 := by
                refine readWord_congr fun i hi => hmem ⟨frame.arg0, 8, false⟩ ?_ rfl i hi
                rw [if_neg (by simp only [hvalid.1, hvalid.2, hsup, Bool.false_eq_true, or_self, not_false_eq_true])]
                exact List.mem_cons_of_mem _ (List.mem_singleton_self _)
              rw [hsec, h.frequency]
      rw [hresult]

/-- The bytes a call stores do not depend on memory. -/
theorem svcSyscall_written (arch : Arch) (mach : Machine) (hfrequency : v.frequency = v'.frequency)
    (hcounter : v.counter = v'.counter) {a : UserAccess} (ha : a ∈ userAccesses v frame) (hwrite : a.write = true) {i : Nat}
    (hi : i < a.length) : (arch.svcSyscall mach v frame).2.memory (a.address + BitVec.ofNat 64 i) =
      (arch.svcSyscall mach v' frame).2.memory (a.address + BitVec.ofNat 64 i) := by
  unfold userAccesses at ha
  unfold Arch.svcSyscall
  cases hcall : syscallOf frame.sysNo with
  | none => simp [hcall] at ha
  | some call =>
    rw [hcall] at ha
    cases call with
    | clockGettime =>
      dsimp only at ha
      split at ha
      · cases ha
      · rename_i hpass
        simp only [not_or, ne_eq, Decidable.not_not] at hpass
        obtain ⟨hclk, htp, hsup, hfreq⟩ := hpass
        simp only [quickCall, sysClockGettime, hclk, htp, hsup, hfreq, ← hfrequency, ← hcounter, ne_eq, not_true_eq_false, if_false,
          Bool.false_eq_true]
        rcases List.mem_cons.1 ha with rfl | ha
        · have hfirst := covers_add (n := 8) frame.arg1 hi (by decide)
          have hsecond : ¬ ByteMemory.Covers (frame.arg1 + nsecOffset) 8 (frame.arg1 + BitVec.ofNat 64 i) := fun hc =>
            ByteMemory.not_covers_of_covers_add (by decide) hc hfirst
          simp only [writeWord]
          rw [ByteMemory.store_of_not_covers hsecond, ByteMemory.store_of_not_covers hsecond]
          exact ByteMemory.store_of_covers hfirst
        · obtain rfl := List.mem_singleton.1 ha
          exact ByteMemory.store_of_covers (covers_add (n := 8) _ hi (by decide))
    | write =>
      dsimp only at ha
      split at ha
      · cases ha
      · split at ha
        · cases ha
        · obtain rfl := List.mem_singleton.1 ha
          cases hwrite
    | nanosleep =>
      dsimp only at ha
      split at ha
      · cases ha
      · split at ha
        all_goals
          simp only [List.mem_cons, List.not_mem_nil, or_false] at ha
          first | (obtain rfl := ha; cases hwrite) | (rcases ha with rfl | rfl <;> cases hwrite)
    | _ => cases ha

end

end Lettuce
