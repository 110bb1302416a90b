import LettuceKernel.Scheduler
import LettuceKernel.Lib.ByteMemory
/-!
# POSIX-lite services (`runtime/posix/src/sys.c`, `runtime/posix/src/fd.c`)

| here | there |
| --- | --- |
| `FdType`, `FdOps`, `FileDescriptor` | fd.h:26-45 without `flags` and `private_data`, which nothing reads |
| `FdTable`            | `g_fd_table` (fd.c:27) |
| `consoleReadOp`, `consoleWriteOp`, `consoleCloseOp` | fd.c:29, :43, :63 |
| `fdTableInit`, `fdGet` | `lettuce_fd_table_init`, `lettuce_fd_get` (fd.c:82, :107) |
| `Errno`              | posix.h:40-44 |
| `inSupervisorMemory` | the test against `KERNEL_MEM_START` and `KERNEL_MEM_END` (sys.c:38) |
| `sysWrite`, `sysRead`, `sysClose`, `sysGetpid` | `lettuce_kernel_sys_*` (sys.c:29, :49, :69, :78) |
| `sysClockGettime`, `sysNanosleep` | sys.c:86, :116, the ARM64 branches |
| `timerInterval`      | `g_timer_interval` (timer.c:41) |

A pointer is a 64-bit address into a byte memory, apart from the scheduler's own tables; EL1 code reads
and writes it without a check. The UART is the list of the bytes sent to it. An `int64_t` result is the 64-bit
word that ends up in `x0`. `lettuce_fd_install` has no caller, so the operation tables
are the two of fd.c; the results hold for any table of them.
-/

namespace Lettuce

open ByteMemory

inductive FdType where
  | unused | consoleIn | consoleOut | consoleErr | pipe | device
deriving DecidableEq, Repr

/-- `g_console_in_ops` and `g_console_out_ops` (fd.c:70, :76). -/
inductive FdOps where
  | consoleIn | consoleOut
deriving DecidableEq, Repr

structure FileDescriptor where
  type : FdType
  ops : Option FdOps
deriving DecidableEq, Repr

/-- `LETTUCE_MAX_FDS` (fd.h:24). -/
abbrev maxFds : Nat := 16

abbrev FdTable := Fin maxFds → FileDescriptor

/-- What the services reach beside the scheduler. -/
structure Services where
  memory : Memory 64
  /-- The bytes sent to the UART so far. -/
  console : List (BitVec 8)
  fds : FdTable
  /-- `cntvct_el0` -/
  counter : BitVec 64
  /-- `cntfrq_el0` -/
  frequency : BitVec 64

inductive Errno where
  | ebadf | einval | efault | enosys
deriving DecidableEq, Repr

def Errno.number : Errno → Nat
  | .ebadf => 9
  | .einval => 22
  | .efault => 14
  | .enosys => 38

/-- The negative result that reports it. -/
def Errno.result (e : Errno) : Reg := -BitVec.ofNat 64 e.number

def kernelMemStart : Nat := 0x40000000

def kernelMemEnd : Nat := 0x40200000

def inSupervisorMemory (ptr : Reg) : Bool := decide (kernelMemStart ≤ ptr.toNat) && decide (ptr.toNat < kernelMemEnd)

theorem inSupervisorMemory_iff (ptr : Reg) :
    inSupervisorMemory ptr = true ↔ kernelMemStart ≤ ptr.toNat ∧ ptr.toNat < kernelMemEnd := by
  simp [inSupervisorMemory]

/-! ## Descriptors -/

def fdTableInit : FdTable := fun i =>
  if i.val = 0 then ⟨.consoleIn, some .consoleIn⟩
  else if i.val = 1 then ⟨.consoleOut, some .consoleOut⟩
  else if i.val = 2 then ⟨.consoleErr, some .consoleOut⟩
  else ⟨.unused, none⟩

/-- `none` is the null pointer. -/
def fdGet (fds : FdTable) (fd : BitVec 32) : Option FileDescriptor :=
  if h : fd.toInt < 0 ∨ fd.toNat ≥ maxFds then none
  else
    let desc := fds ⟨fd.toNat, Nat.lt_of_not_le fun hle => h (Or.inr hle)⟩
    if desc.type = .unused then none else some desc

def consoleReadOp (buf count : Reg) : Reg := if buf = 0 ∧ count ≠ 0 then Errno.efault.result else if count = 0 then 0 else 0

def consoleWriteOp (v : Services) (buf count : Reg) : Services × Reg :=
  if buf = 0 ∧ count ≠ 0 then (v, Errno.efault.result)
  else if count = 0 then (v, 0)
  else ({ v with console := v.console ++ bytes v.memory buf count.toNat }, count)

def consoleCloseOp : Reg := 0

/-- The function pointers of the operation tables, `none` for a null one. -/
def FdOps.read : FdOps → Option (Reg → Reg → Reg)
  | .consoleIn => some consoleReadOp
  | .consoleOut => none

def FdOps.write : FdOps → Option (Services → Reg → Reg → Services × Reg)
  | .consoleIn => none
  | .consoleOut => some consoleWriteOp

def FdOps.close : FdOps → Option Reg
  | .consoleIn => some consoleCloseOp
  | .consoleOut => some consoleCloseOp

/-! ## Services -/

def sysWrite (v : Services) (fd : BitVec 32) (buf count : Reg) : Services × Reg :=
  if count = 0 then (v, 0)
  else if buf = 0 then (v, Errno.efault.result)
  else if inSupervisorMemory buf then (v, Errno.efault.result)
  else
    match (fdGet v.fds fd).bind fun desc => desc.ops.bind FdOps.write with
    | none => (v, Errno.ebadf.result)
    | some write => write v buf count

def sysRead (v : Services) (fd : BitVec 32) (buf count : Reg) : Services × Reg :=
  if count = 0 then (v, 0)
  else if buf = 0 then (v, Errno.efault.result)
  else if inSupervisorMemory buf then (v, Errno.efault.result)
  else
    match (fdGet v.fds fd).bind fun desc => desc.ops.bind FdOps.read with
    | none => (v, Errno.ebadf.result)
    | some read => (v, read buf count)

def sysClose (v : Services) (fd : BitVec 32) : Reg :=
  match (fdGet v.fds fd).bind fun desc => desc.ops.bind FdOps.close with
  | none => Errno.ebadf.result
  | some result => result

def sysGetpid (s : Scheduler) : Reg :=
  match s.current with
  | some c => (s.tasks c).id.setWidth 64
  | none => 1

/-- `CLOCK_MONOTONIC` (posix.h:28). -/
def clockMonotonic : BitVec 32 := 1

/-- The 64-bit word at `p`. -/
def readWord (m : Memory 64) (p : Reg) : BitVec 64 := BitVec.ofNat 64 (load m p 8)

def writeWord (m : Memory 64) (p : Reg) (value : BitVec 64) : Memory 64 := store m p 8 value.toNat

/-- The offset of `tv_nsec` in `struct timespec`; `tv_sec` is at 0. -/
def nsecOffset : Reg := 8

def sysClockGettime (v : Services) (clkId : BitVec 32) (tp : Reg) : Services × Reg :=
  if clkId ≠ clockMonotonic then (v, Errno.einval.result)
  else if tp = 0 then (v, Errno.efault.result)
  else if inSupervisorMemory tp then (v, Errno.efault.result)
  else if v.frequency = 0 then (v, Errno.einval.result)
  else
    let sec := v.counter / v.frequency
    let nsec := v.counter % v.frequency * 1000000000#64 / v.frequency
    ({ v with memory := writeWord (writeWord v.memory tp sec) (tp + nsecOffset) nsec }, 0)

/-- `delta_ticks` (sys.c:130), from the two words of the request. -/
def sleepTicks (frequency sec nsec : BitVec 64) : BitVec 64 := sec * frequency + nsec * frequency / 1000000000#64

/-- `tv_nsec` is read, and tested, before the address is. -/
def sysNanosleep (v : Services) (s : Scheduler) (now : BitVec 64) (req _rem : Reg) (trapFrame : Option TrapFrame) :
    ScheduleResult × Reg :=
  if req = 0 then (⟨s, trapFrame, none⟩, Errno.efault.result)
  else
    let nsec := readWord v.memory (req + nsecOffset)
    if nsec.toInt < 0 ∨ nsec.toInt ≥ 1000000000 then (⟨s, trapFrame, none⟩, Errno.einval.result)
    else if inSupervisorMemory req then (⟨s, trapFrame, none⟩, Errno.efault.result)
    else
      let sec := readWord v.memory req
      (schedulerSleepCurrent s (sleepTicks v.frequency sec nsec) now trapFrame, 0)

/-- The counter cycles between two timer interrupts, after `lettuce_timer_init(hz)`. -/
def timerInterval (frequency : BitVec 64) (hz : BitVec 32) : BitVec 64 :=
  frequency / (if hz = 0 then 100#32 else hz).setWidth 64

/-! ## Words in memory -/

theorem readWord_writeWord (m : Memory 64) (p : Reg) (value : BitVec 64) : readWord (writeWord m p value) p = value := by
  have hlt := value.isLt
  apply BitVec.eq_of_toNat_eq
  rw [readWord, writeWord, load_store (by decide), BitVec.toNat_ofNat]
  omega

/-- The two words of a `struct timespec` do not overlap, wherever it lies. -/
theorem readWord_writeWord_nsec (m : Memory 64) (p : Reg) (value : BitVec 64) :
    readWord (writeWord m (p + nsecOffset) value) p = readWord m p := by
  have hdisjoint : ∀ b, Covers p 8 b → ¬ Covers (p + nsecOffset) 8 b := fun b hb hnsec =>
    not_covers_of_covers_add (by decide) hnsec hb
  rw [readWord, writeWord, load_store_of_disjoint hdisjoint, readWord]

end Lettuce
