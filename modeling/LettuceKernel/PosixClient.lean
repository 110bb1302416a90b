import LettuceKernel.Board
/-!
# The client side of the POSIX-lite services (`runtime/posix/src/posix.c`)

| here | there |
| --- | --- |
| `Client`             | a process: the board it runs on, the counter, and `g_lettuce_errno` (posix.c:20) |
| `Arch.lettuceSyscall` | `lettuce_syscall0` to `lettuce_syscall3` (posix.c:37-71) |
| `checked`            | the test of the result that four of the wrappers make |
| `Arch.lettuceWrite`, `lettuceRead`, `lettuceClose`, `lettuceGetpid`, `lettuceClockGettime` | posix.c:81, :96, :111, :126, :136 |

A wrapper loads `x8` and the argument registers, and everything else in the trap frame is whatever the compiler left there.
The kernel's error comes back as a negative `x0`, which the wrapper turns into -1 and `errno`. Seen from the process the
services are a terminal with the descriptors 0, 1 and 2 that nothing closes, and a clock. A buffer that passes the tests of
the kernel has to be mapped as well: the handler faults on any other, and the board halts (`ClientOk`).
-/

namespace Lettuce

open ByteMemory Runs Translation

structure Client where
  board : Board
  /-- `cntvct_el0` -/
  counter : BitVec 64
  errno : BitVec 32

/-- What the kernel reaches for it, with the device registers that answer. -/
def Client.services (c : Client) (device : ByteMemory.Memory 64) : Services := c.board.services c.counter device

/-- The registers at the `svc`: `x8`, the arguments, and the rest of `regs`. -/
def syscallFrame (regs : TrapFrame) (sysNo : Reg) (args : List Reg) : TrapFrame :=
  { regs with x := fun r => if r.val = 8 then sysNo else args.getD r.val (regs.x r) }

/-- `if (res < 0) { errno = -res; return -1; }`, before the wrapper's own result. -/
def checked (r : Client × Option Reg) (value : Reg → Int) : Client × Option Int :=
  match r.2 with
  | none => (r.1, none)
  | some res => if res.toInt < 0 then ({ r.1 with errno := (-res).setWidth 32 }, some (-1)) else (r.1, some (value res))

inductive ClientCall where
  | write (fd : BitVec 32) (buf count : Reg)
  | read (fd : BitVec 32) (buf count : Reg)
  | close (fd : BitVec 32)
  | getpid
  | clockGettime (clkId : BitVec 32) (tp : Reg)

namespace Arch

variable (arch : Arch) (c : Client) (regs : TrapFrame) (device : ByteMemory.Memory 64)

/-- `none` when the handler does not come back to EL0. -/
def lettuceSyscall (sysNo : Reg) (args : List Reg) : Client × Option Reg :=
  let board := boardStep arch c.board (.syscall (syscallFrame regs sysNo args) c.counter device)
  ({ c with board },
    match board.machine.exec with
    | .el0 frame => some frame.arg0
    | _ => none)

def lettuceWrite (fd : BitVec 32) (buf count : Reg) : Client × Option Int :=
  checked (arch.lettuceSyscall c regs device 1 [fd.signExtend 64, buf, count]) BitVec.toInt

def lettuceRead (fd : BitVec 32) (buf count : Reg) : Client × Option Int :=
  checked (arch.lettuceSyscall c regs device 2 [fd.signExtend 64, buf, count]) BitVec.toInt

def lettuceClose (fd : BitVec 32) : Client × Option Int :=
  checked (arch.lettuceSyscall c regs device 3 [fd.signExtend 64]) fun _ => 0

/-- The result is cut to a `pid_t` and not tested. -/
def lettuceGetpid : Client × Option Int :=
  let r := arch.lettuceSyscall c regs device 4 []
  (r.1, r.2.map fun res => (res.setWidth 32).toInt)

def lettuceClockGettime (clkId : BitVec 32) (tp : Reg) : Client × Option Int :=
  checked (arch.lettuceSyscall c regs device 5 [clkId.signExtend 64, tp]) fun _ => 0

def clientCall : ClientCall → Client × Option Int
  | .write fd buf count => arch.lettuceWrite c regs device fd buf count
  | .read fd buf count => arch.lettuceRead c regs device fd buf count
  | .close fd => arch.lettuceClose c regs device fd
  | .getpid => arch.lettuceGetpid c regs device
  | .clockGettime clkId tp => arch.lettuceClockGettime c regs device clkId tp

end Arch

/-- What a process does: a call, a store of its own, or it lets cycles of the counter pass. -/
inductive ClientEvent where
  | call (regs : TrapFrame) (device : ByteMemory.Memory 64) (call : ClientCall)
  | store (p : Reg) (byte : BitVec 8)
  | elapse (cycles : Nat)

def Arch.clientStep (arch : Arch) (c : Client) : ClientEvent → Client
  | .call regs device call => (arch.clientCall c regs device call).1
  | .store p byte => { c with board := boardStep arch c.board (.store p byte) }
  | .elapse cycles => { c with counter := c.counter + BitVec.ofNat 64 cycles }

/-- The trap frame of a call. -/
def ClientCall.frame (regs : TrapFrame) : ClientCall → TrapFrame
  | .write fd buf count => syscallFrame regs 1 [fd.signExtend 64, buf, count]
  | .read fd buf count => syscallFrame regs 2 [fd.signExtend 64, buf, count]
  | .close fd => syscallFrame regs 3 [fd.signExtend 64]
  | .getpid => syscallFrame regs 4 []
  | .clockGettime clkId tp => syscallFrame regs 5 [clkId.signExtend 64, tp]

/-- Every byte that the handler reads or writes for the process is mapped for it. -/
def ClientCall.Mapped (c : Client) (regs : TrapFrame) (device : ByteMemory.Memory 64) (call : ClientCall) : Prop :=
  (userAccesses (c.services device) (call.frame regs)).all c.board.completes = true

/-- The bytes a call asks the kernel to send. -/
def ClientCall.size : ClientCall → Reg
  | .write _ _ count => count
  | _ => 0

/-- What the kernel touches for the process, and what the process stores, is mapped; a `ssize_t` can report the size, and the
counter stays below 2^63. -/
def ClientOk (c : Client) : ClientEvent → Prop
  | .call regs device call => call.Mapped c regs device ∧ call.size.toNat < 2 ^ 63
  | .store p _ => (c.board.target Leaf.el0Write p).isSome = true
  | .elapse cycles => c.counter.toNat + cycles < 2 ^ 63

instance (c : Client) (e : ClientEvent) : Decidable (ClientOk c e) :=
  match e with
  | .call .. => inferInstanceAs (Decidable (_ = true ∧ _ < _))
  | .store .. => inferInstanceAs (Decidable (_ = true))
  | .elapse .. => inferInstanceAs (Decidable (_ < _))

/-! ## The terminal -/

/-- The result of a call on a terminal with three descriptors. -/
def ClientCall.outcome (c : Client) : ClientCall → Except Errno Int
  | .write fd buf count =>
    if count = 0 then .ok 0
    else if ¬ Accepted buf then .error .efault
    else if fd = 1 ∨ fd = 2 then .ok count.toNat
    else .error .ebadf
  | .read fd buf count =>
    if count = 0 then .ok 0 else if ¬ Accepted buf then .error .efault else if fd = 0 then .ok 0 else .error .ebadf
  | .close fd => if fd.toNat < 3 then .ok 0 else .error .ebadf
  | .getpid => .ok (match c.board.machine.sched.current with
    | some i => (c.board.machine.sched.tasks i).id.toInt
    | none => 1)
  | .clockGettime clkId tp =>
    if clkId ≠ clockMonotonic then .error .einval
    else if ¬ Accepted tp then .error .efault
    else if c.board.frequency = 0 then .error .einval
    else .ok 0

/-- What a successful call prints. -/
def ClientCall.prints (c : Client) (device : ByteMemory.Memory 64) (call : ClientCall) : List (BitVec 8) :=
  match call, call.outcome c with
  | .write _ buf count, .ok _ => bytes (c.services device).memory buf count.toNat
  | _, _ => []

/-- The value the process gets. -/
def answer : Except Errno Int → Int
  | .ok value => value
  | .error _ => -1

/-- `errno` after the call. -/
def errnoAfter (errno : BitVec 32) : Except Errno Int → BitVec 32
  | .ok _ => errno
  | .error e => BitVec.ofNat 32 e.number

/-! ## One call -/

section
variable {arch : Arch} {c : Client} {regs : TrapFrame} {device : ByteMemory.Memory 64}

/-- A call of the kernel that reaches no scheduler and does not fault comes back with its result. -/
theorem lettuceSyscall_quick (arch : Arch) (hel0 : c.board.machine.inEl0 = true) {sysNo : Reg} {args : List Reg} {call : Syscall}
    {r : Services × Reg} (hcall : syscallOf sysNo = some call)
    (hquick : quickCall c.board.machine.sched (c.services device) (syscallFrame regs sysNo args) call = some r)
    (hmapped : (userAccesses (c.services device) (syscallFrame regs sysNo args)).all c.board.completes = true) :
    ∃ memory, arch.lettuceSyscall c regs device sysNo args =
      ({ c with
          board :=
            { c.board with
              machine := { c.board.machine with exec := .el0 ((syscallFrame regs sysNo args).setX0 r.2) }
              memory
              console := r.1.console } }, some r.2) := by
  have hsysNo : (syscallFrame regs sysNo args).sysNo = sysNo := rfl
  unfold Client.services at hquick hmapped
  simp only [Arch.lettuceSyscall, boardStep, hel0, if_true, Board.syscall, hmapped, Arch.svcSyscall, hsysNo, hcall, hquick,
    TrapFrame.arg0, TrapFrame.setX0, Function.update_self]
  exact ⟨_, rfl⟩

/-- The error arrives: a negative result, and its number in `errno`. -/
theorem errno_arrives (e : Errno) : e.result.toInt < 0 ∧ (-e.result).setWidth 32 = BitVec.ofNat 32 e.number := by
  cases e <;> decide

theorem checked_error (c : Client) (e : Errno) (value : Reg → Int) :
    checked (c, some e.result) value = ({ c with errno := BitVec.ofNat 32 e.number }, some (-1)) := by
  obtain ⟨hneg, hnumber⟩ := errno_arrives e
  simp only [checked, hneg, if_true, hnumber]

theorem checked_ok (c : Client) {res : Reg} (hres : 0 ≤ res.toInt) (value : Reg → Int) :
    checked (c, some res) value = (c, some (value res)) := by
  simp only [checked, if_neg (not_lt.2 hres)]

/-- A descriptor argument survives its extension to a register. -/
theorem setWidth_signExtend (v : BitVec 32) : (v.signExtend 64).setWidth 32 = v := by
  ext i hi
  rw [BitVec.getElem_setWidth, BitVec.getLsbD_signExtend, BitVec.getLsbD_eq_getElem hi]
  simp [hi]
  omega

/-- The table of fd.c at boot. -/
theorem fdGet_init (fd : BitVec 32) : fdGet fdTableInit fd =
    if fd = 0 then some ⟨.consoleIn, some .consoleIn⟩
    else if fd = 1 then some ⟨.consoleOut, some .consoleOut⟩
    else if fd = 2 then some ⟨.consoleErr, some .consoleOut⟩
    else none := by
  rcases Nat.lt_or_ge fd.toNat maxFds with hlt | hge
  · have hfd : fd = BitVec.ofNat 32 fd.toNat := by rw [BitVec.ofNat_toNat, BitVec.setWidth_eq]
    generalize fd.toNat = n at hlt hfd
    subst hfd
    revert n
    decide
  · have hne : ∀ k : BitVec 32, k.toNat < maxFds → fd ≠ k := fun k hk heq => absurd (heq ▸ hk) (Nat.not_lt.2 hge)
    rw [fdGet, dif_pos (Or.inr hge), if_neg (hne 0 (by decide)), if_neg (hne 1 (by decide)), if_neg (hne 2 (by decide))]

theorem writable_init (fd : BitVec 32) : ((fdGet fdTableInit fd).bind fun desc => desc.ops.bind FdOps.write) =
    if fd = 1 ∨ fd = 2 then some consoleWriteOp else none := by
  rw [fdGet_init]
  by_cases h0 : fd = 0
  · subst h0
    rfl
  · by_cases h1 : fd = 1
    · subst h1
      rfl
    · by_cases h2 : fd = 2
      · subst h2
        rfl
      · simp only [h0, h1, h2, if_false, or_self, Option.bind_none]

theorem readable_init (fd : BitVec 32) : ((fdGet fdTableInit fd).bind fun desc => desc.ops.bind FdOps.read) =
    if fd = 0 then some consoleReadOp else none := by
  rw [fdGet_init]
  split
  · rfl
  · split
    · rfl
    · split <;> rfl

theorem closable_init (fd : BitVec 32) : ((fdGet fdTableInit fd).bind fun desc => desc.ops.bind FdOps.close) =
    if fd.toNat < 3 then some consoleCloseOp else none := by
  rw [fdGet_init]
  by_cases h0 : fd = 0
  · subst h0
    rfl
  · by_cases h1 : fd = 1
    · subst h1
      rfl
    · by_cases h2 : fd = 2
      · subst h2
        rfl
      · have hge : ¬ fd.toNat < 3 := by
          have hne0 : fd.toNat ≠ 0 := fun h => h0 (BitVec.eq_of_toNat_eq h)
          have hne1 : fd.toNat ≠ 1 := fun h => h1 (BitVec.eq_of_toNat_eq h)
          have hne2 : fd.toNat ≠ 2 := fun h => h2 (BitVec.eq_of_toNat_eq h)
          omega
        simp only [h0, h1, h2, hge, if_false, Option.bind_none]

/-- The `x0` of an outcome. -/
def resultWord : Except Errno Int → Reg
  | .ok value => BitVec.ofInt 64 value
  | .error e => e.result

/-- A wrapper turns the word back into the outcome. -/
theorem checked_outcome (c : Client) {o : Except Errno Int} {value : Reg → Int}
    (hvalue : ∀ n, o = .ok n → 0 ≤ (BitVec.ofInt 64 n).toInt ∧ value (BitVec.ofInt 64 n) = n) :
    checked (c, some (resultWord o)) value = ({ c with errno := errnoAfter c.errno o }, some (answer o)) := by
  cases o with
  | ok n =>
    obtain ⟨hpos, heq⟩ := hvalue n rfl
    rw [resultWord, checked_ok c hpos, heq]
    rfl
  | error e => exact checked_error c e value

/-- The two tests of an address. -/
theorem accepted_ite {α : Type} (p : Reg) (refused served : α) :
    (if p = 0 then refused else if inSupervisorMemory p = true then refused else served) =
      if ¬ Accepted p then refused else served := by
  by_cases hzero : p = 0
  · rw [if_pos hzero, if_pos fun h => h.1 hzero]
  · rw [if_neg hzero]
    by_cases hsup : inSupervisorMemory p = true
    · rw [if_pos hsup, if_pos fun h => Bool.false_ne_true (h.2.symm.trans hsup)]
    · rw [if_neg hsup, if_neg (not_not_intro ⟨hzero, Bool.eq_false_iff.2 hsup⟩)]

theorem sysWrite_outcome (hfds : c.board.fds = fdTableInit) (fd : BitVec 32) (buf count : Reg) :
    sysWrite (c.services device) fd buf count =
      ({ c.services device with console := c.board.console ++ (ClientCall.write fd buf count).prints c device },
        resultWord ((ClientCall.write fd buf count).outcome c)) := by
  have hop := writable_init fd
  rw [← hfds, show c.board.fds = (c.services device).fds from rfl] at hop
  have hconsole : (c.services device).console = c.board.console := rfl
  simp only [sysWrite, hop, ClientCall.prints, ClientCall.outcome, accepted_ite]
  by_cases hcount : count = 0
  · subst hcount
    simp [resultWord, bytes, ← hconsole]
  · by_cases hbuf : Accepted buf
    · simp only [if_neg hcount, if_neg (not_not_intro hbuf)]
      by_cases hfd : fd = 1 ∨ fd = 2
      · simp only [if_pos hfd, consoleWriteOp, hbuf.1, hcount, false_and, if_false, resultWord]
        rw [BitVec.ofInt_natCast, BitVec.ofNat_toNat, BitVec.setWidth_eq, hconsole]
      · simp only [if_neg hfd, resultWord, List.append_nil, ← hconsole]
    · simp only [if_neg hcount, if_pos hbuf, resultWord, List.append_nil, ← hconsole]

theorem sysRead_outcome (hfds : c.board.fds = fdTableInit) (fd : BitVec 32) (buf count : Reg) :
    sysRead (c.services device) fd buf count = (c.services device, resultWord ((ClientCall.read fd buf count).outcome c)) := by
  have hop := readable_init fd
  rw [← hfds, show c.board.fds = (c.services device).fds from rfl] at hop
  simp only [sysRead, hop, ClientCall.outcome, accepted_ite]
  by_cases hcount : count = 0
  · simp [hcount, resultWord]
  · by_cases hbuf : Accepted buf
    · simp only [if_neg hcount, if_neg (not_not_intro hbuf)]
      by_cases hfd : fd = 0
      · simp only [if_pos hfd, consoleReadOp_eq_zero hbuf.1, resultWord]
        rfl
      · simp only [if_neg hfd, resultWord]
    · simp only [if_neg hcount, if_pos hbuf, resultWord]

theorem sysClose_outcome (hfds : c.board.fds = fdTableInit) (fd : BitVec 32) :
    sysClose (c.services device) fd = resultWord ((ClientCall.close fd).outcome c) := by
  have hop := closable_init fd
  rw [← hfds, show c.board.fds = (c.services device).fds from rfl] at hop
  simp only [sysClose, hop, ClientCall.outcome]
  by_cases hfd : fd.toNat < 3
  · simp [hfd, resultWord, consoleCloseOp]
  · simp only [if_neg hfd, resultWord]

/-- Only the memory changes. -/
theorem sysClockGettime_outcome (c : Client) (device : ByteMemory.Memory 64) (clkId : BitVec 32) (tp : Reg) :
    ∃ m, sysClockGettime (c.services device) clkId tp =
      ({ c.services device with memory := m }, resultWord ((ClientCall.clockGettime clkId tp).outcome c)) := by
  have hfrequency : (c.services device).frequency = c.board.frequency := rfl
  simp only [sysClockGettime, ClientCall.outcome, accepted_ite, hfrequency]
  by_cases hclk : clkId ≠ clockMonotonic
  · simp only [if_pos hclk]
    exact ⟨_, rfl⟩
  · simp only [if_neg hclk]
    by_cases htp : ¬ Accepted tp
    · simp only [if_pos htp]
      exact ⟨_, rfl⟩
    · simp only [if_neg htp]
      by_cases hf : c.board.frequency = 0
      · simp only [if_pos hf]
        exact ⟨_, rfl⟩
      · simp only [if_neg hf]
        exact ⟨_, rfl⟩

/-- The process after a call: what is printed is all that changes but for the memory and the registers. -/
structure Answered (c : Client) (device : ByteMemory.Memory 64) (call : ClientCall) (r : Client × Option Int) : Prop where
  value : r.2 = some (answer (call.outcome c))
  errno : r.1.errno = errnoAfter c.errno (call.outcome c)
  console : r.1.board.console = c.board.console ++ call.prints c device
  fds : r.1.board.fds = c.board.fds
  frequency : r.1.board.frequency = c.board.frequency
  counter : r.1.counter = c.counter
  el0 : r.1.board.machine.inEl0 = true

/-- The four wrappers that test the result. -/
theorem checked_answered (hel0 : c.board.machine.inEl0 = true) {call : ClientCall} {sysNo : Reg} {args : List Reg}
    {syscall : Syscall} {m : ByteMemory.Memory 64} {value : Reg → Int} (hcall : syscallOf sysNo = some syscall)
    (hmapped : (userAccesses (c.services device) (syscallFrame regs sysNo args)).all c.board.completes = true)
    (hquick : quickCall c.board.machine.sched (c.services device) (syscallFrame regs sysNo args) syscall =
      some ({ c.services device with memory := m, console := c.board.console ++ call.prints c device },
        resultWord (call.outcome c)))
    (hvalue : ∀ n, call.outcome c = .ok n → 0 ≤ (BitVec.ofInt 64 n).toInt ∧ value (BitVec.ofInt 64 n) = n) :
    Answered c device call (checked (arch.lettuceSyscall c regs device sysNo args) value) := by
  obtain ⟨memory, hback⟩ := lettuceSyscall_quick arch hel0 hcall hquick hmapped
  rw [hback, checked_outcome _ hvalue]
  exact ⟨rfl, rfl, rfl, rfl, rfl, rfl, rfl⟩

theorem toInt_ofInt_natCast {n : Nat} (hn : n < 2 ^ 63) : (BitVec.ofInt 64 (n : Int)).toInt = n := by
  rw [BitVec.toInt_ofInt, Int.bmod_def]
  split <;> omega

/-- A wrapper that reports the size of a transfer. -/
theorem transfer_value {call : ClientCall} {count : Reg} (hcount : count.toNat < 2 ^ 63)
    (hcall : ∀ n, call.outcome c = .ok n → n = 0 ∨ n = (count.toNat : Int)) :
    ∀ n, call.outcome c = .ok n → 0 ≤ (BitVec.ofInt 64 n).toInt ∧ (BitVec.ofInt 64 n).toInt = n := by
  intro n hn
  rcases hcall n hn with rfl | rfl
  · exact ⟨by decide, by decide⟩
  · rw [toInt_ofInt_natCast hcount]
    exact ⟨Int.natCast_nonneg _, rfl⟩

/-- A wrapper whose success is always 0. -/
theorem zero_value {call : ClientCall} (value : Reg → Int) (hvalue : value 0 = 0) (hcall : ∀ n, call.outcome c = .ok n → n = 0) :
    ∀ n, call.outcome c = .ok n → 0 ≤ (BitVec.ofInt 64 n).toInt ∧ value (BitVec.ofInt 64 n) = n := by
  intro n hn
  obtain rfl := hcall n hn
  exact ⟨by decide, hvalue⟩

theorem outcome_write {fd : BitVec 32} {buf count : Reg} {n : Int} (h : (ClientCall.write fd buf count).outcome c = .ok n) :
    n = 0 ∨ n = (count.toNat : Int) := by
  simp only [ClientCall.outcome] at h
  split at h
  · exact Or.inl (Except.ok.inj h).symm
  · split at h
    · cases h
    · split at h
      · exact Or.inr (Except.ok.inj h).symm
      · cases h

theorem outcome_read {fd : BitVec 32} {buf count : Reg} {n : Int} (h : (ClientCall.read fd buf count).outcome c = .ok n) : n = 0 := by
  simp only [ClientCall.outcome] at h
  split at h
  · exact (Except.ok.inj h).symm
  · split at h
    · cases h
    · split at h
      · exact (Except.ok.inj h).symm
      · cases h

theorem outcome_close {fd : BitVec 32} {n : Int} (h : (ClientCall.close fd).outcome c = .ok n) : n = 0 := by
  simp only [ClientCall.outcome] at h
  split at h
  · exact (Except.ok.inj h).symm
  · cases h

theorem outcome_clockGettime {clkId : BitVec 32} {tp : Reg} {n : Int} (h : (ClientCall.clockGettime clkId tp).outcome c = .ok n) :
    n = 0 := by
  simp only [ClientCall.outcome] at h
  split at h
  · cases h
  · split at h
    · cases h
    · split at h
      · cases h
      · exact (Except.ok.inj h).symm

theorem lettuceWrite_answered (hel0 : c.board.machine.inEl0 = true) (hfds : c.board.fds = fdTableInit) {fd : BitVec 32}
    {buf count : Reg} (hmapped : (ClientCall.write fd buf count).Mapped c regs device) (hcount : count.toNat < 2 ^ 63) :
    Answered c device (.write fd buf count) (arch.lettuceWrite c regs device fd buf count) := by
  have hquick : quickCall c.board.machine.sched (c.services device) (syscallFrame regs 1 [fd.signExtend 64, buf, count]) .write =
      some (sysWrite (c.services device) ((fd.signExtend 64).setWidth 32) buf count) := rfl
  rw [setWidth_signExtend, sysWrite_outcome hfds] at hquick
  exact checked_answered hel0 rfl hmapped hquick (transfer_value hcount fun n hn => outcome_write hn)

theorem lettuceRead_answered (hel0 : c.board.machine.inEl0 = true) (hfds : c.board.fds = fdTableInit) {fd : BitVec 32}
    {buf count : Reg} (hmapped : (ClientCall.read fd buf count).Mapped c regs device) :
    Answered c device (.read fd buf count) (arch.lettuceRead c regs device fd buf count) := by
  have hquick : quickCall c.board.machine.sched (c.services device) (syscallFrame regs 2 [fd.signExtend 64, buf, count]) .read =
      some (sysRead (c.services device) ((fd.signExtend 64).setWidth 32) buf count) := rfl
  rw [setWidth_signExtend, sysRead_outcome hfds] at hquick
  refine checked_answered (m := (c.services device).memory) hel0 rfl hmapped (hquick.trans ?_)
    (zero_value _ rfl fun n hn => outcome_read hn)
  simp only [ClientCall.prints, List.append_nil]
  rfl

theorem lettuceClose_answered (hel0 : c.board.machine.inEl0 = true) (hfds : c.board.fds = fdTableInit) {fd : BitVec 32}
    (hmapped : (ClientCall.close fd).Mapped c regs device) :
    Answered c device (.close fd) (arch.lettuceClose c regs device fd) := by
  have hquick : quickCall c.board.machine.sched (c.services device) (syscallFrame regs 3 [fd.signExtend 64]) .close =
      some (c.services device, sysClose (c.services device) ((fd.signExtend 64).setWidth 32)) := rfl
  rw [setWidth_signExtend, sysClose_outcome hfds] at hquick
  refine checked_answered (m := (c.services device).memory) hel0 rfl hmapped (hquick.trans ?_)
    (zero_value (fun _ => 0) rfl fun n hn => outcome_close hn)
  simp only [ClientCall.prints, List.append_nil]
  rfl

/-- The one wrapper that does not test the result. -/
theorem lettuceGetpid_answered (hel0 : c.board.machine.inEl0 = true) (hmapped : ClientCall.getpid.Mapped c regs device) :
    Answered c device .getpid (arch.lettuceGetpid c regs device) := by
  have hquick : quickCall c.board.machine.sched (c.services device) (syscallFrame regs 4 []) .getpid =
      some (c.services device, sysGetpid c.board.machine.sched) := rfl
  obtain ⟨memory, hback⟩ := lettuceSyscall_quick arch hel0 rfl hquick hmapped
  rw [Arch.lettuceGetpid, hback]
  refine ⟨?_, rfl, (List.append_nil _).symm, rfl, rfl, rfl, rfl⟩
  simp only [Option.map_some, ClientCall.outcome, answer, sysGetpid]
  cases c.board.machine.sched.current with
  | none => rfl
  | some i =>
    have hpid : (((c.board.machine.sched.tasks i).id.setWidth 64).setWidth 32) = (c.board.machine.sched.tasks i).id := by
      rw [BitVec.setWidth_setWidth_of_le _ (by decide), BitVec.setWidth_eq]
    simp only [hpid]

theorem lettuceClockGettime_answered (hel0 : c.board.machine.inEl0 = true) {clkId : BitVec 32} {tp : Reg}
    (hmapped : (ClientCall.clockGettime clkId tp).Mapped c regs device) :
    Answered c device (.clockGettime clkId tp) (arch.lettuceClockGettime c regs device clkId tp) := by
  have hquick : quickCall c.board.machine.sched (c.services device) (syscallFrame regs 5 [clkId.signExtend 64, tp]) .clockGettime =
      some (sysClockGettime (c.services device) ((clkId.signExtend 64).setWidth 32) tp) := rfl
  obtain ⟨m, hm⟩ := sysClockGettime_outcome c device clkId tp
  rw [setWidth_signExtend, hm] at hquick
  refine checked_answered (m := m) hel0 rfl hmapped (hquick.trans ?_) (zero_value (fun _ => 0) rfl fun n hn => outcome_clockGettime hn)
  simp only [ClientCall.prints, List.append_nil]
  rfl

/-- Each call of the process has the terminal's outcome. -/
theorem clientCall_answered (hel0 : c.board.machine.inEl0 = true) (hfds : c.board.fds = fdTableInit) {call : ClientCall}
    (hok : ClientOk c (.call regs device call)) : Answered c device call (arch.clientCall c regs device call) := by
  cases call with
  | write fd buf count => exact lettuceWrite_answered hel0 hfds hok.1 hok.2
  | read fd buf count => exact lettuceRead_answered hel0 hfds hok.1
  | close fd => exact lettuceClose_answered hel0 hfds hok.1
  | getpid => exact lettuceGetpid_answered hel0 hok.1
  | clockGettime clkId tp => exact lettuceClockGettime_answered hel0 hok.1

end

/-! ## A process -/

abbrev ClientHistory := List (Client × ClientEvent)

/-- What the calls of a history printed. -/
def written : ClientHistory → List (BitVec 8)
  | [] => []
  | (c, .call _ device call) :: h => written h ++ call.prints c device
  | _ :: h => written h

/-- The number of the last error. -/
def lastErrno (errno : BitVec 32) : ClientHistory → BitVec 32
  | [] => errno
  | (c, .call _ _ call) :: h => errnoAfter (lastErrno errno h) (call.outcome c)
  | _ :: h => lastErrno errno h

/-- The time a successful `clock_gettime` stores. -/
def clockRead (p : Client × ClientEvent) : Option (Int × Int) :=
  match p.2 with
  | .call _ device (.clockGettime clkId tp) =>
    match (ClientCall.clockGettime clkId tp).outcome p.1 with
    | .ok _ => some (reportedTime (p.1.services device) tp)
    | .error _ => none
  | _ => none

/-- The time of the counter. -/
def Client.time (c : Client) : Int × Int :=
  ((c.counter.toNat / c.board.frequency.toNat : Nat),
    (c.counter.toNat % c.board.frequency.toNat * 1000000000 / c.board.frequency.toNat : Nat))

theorem TimeLe.refl (t : Int × Int) : TimeLe t t := Or.inr ⟨rfl, le_rfl⟩

theorem TimeLe.trans {t t' t'' : Int × Int} (h : TimeLe t t') (h' : TimeLe t' t'') : TimeLe t t'' := by
  unfold TimeLe at h h' ⊢
  omega

theorem Client.time_mono {c c' : Client} (hf : c'.board.frequency = c.board.frequency) (hc : c.counter.toNat ≤ c'.counter.toNat) :
    TimeLe c.time c'.time := by
  unfold TimeLe Client.time
  rw [hf]
  rcases split_floor_mono c.board.frequency.toNat 1000000000 hc with hlt | ⟨heq, hle⟩
  · exact Or.inl (Int.ofNat_lt.2 hlt)
  · exact Or.inr ⟨congrArg Nat.cast heq, Int.ofNat_le.2 hle⟩

section
variable {arch : Arch} {c₀ c : Client} {h : ClientHistory}

/-- A successful reading is the time of the counter. -/
theorem clockRead_eq {e : ClientEvent} {t : Int × Int} (hf32 : c.board.frequency.toNat < 2 ^ 32)
    (hc : c.counter.toNat < 2 ^ 63) (ht : clockRead (c, e) = some t) : t = c.time := by
  unfold clockRead at ht
  split at ht
  · next regs device clkId tp heq =>
    split at ht
    · next value hok =>
      simp only [ClientCall.outcome] at hok
      split at hok
      · cases hok
      · split at hok
        · cases hok
        · next htp =>
          split at hok
          · cases hok
          · next hf =>
            obtain ⟨hsec, hnsec⟩ := reportedTime_eq (v := c.services device) (not_not.1 htp) hf hf32 hc
            rw [← Option.some.inj ht]
            exact Prod.ext hsec hnsec
    · cases ht
  · cases ht

/-- What a run of the process keeps. -/
structure Client.Terminal (c₀ : Client) (h : ClientHistory) (c : Client) : Prop where
  el0 : c.board.machine.inEl0 = true
  fds : c.board.fds = fdTableInit
  frequency : c.board.frequency = c₀.board.frequency
  counter : c.counter.toNat < 2 ^ 63
  console : c.board.console = c₀.board.console ++ written h
  errno : c.errno = lastErrno c₀.errno h
  past : ∀ t ∈ h.filterMap clockRead, TimeLe t c.time
  ordered : (h.filterMap clockRead).Pairwise fun later earlier => TimeLe earlier later

/-- A step that leaves the processor with the process, and lets time pass. -/
theorem Client.Terminal.quiet (ht : Client.Terminal c₀ h c) {e : ClientEvent} {c' : Client}
    (hread : ∀ t, clockRead (c, e) = some t → t = c.time) (hel0 : c'.board.machine.inEl0 = true)
    (hfds : c'.board.fds = c.board.fds) (hf : c'.board.frequency = c.board.frequency) (hc : c.counter.toNat ≤ c'.counter.toNat)
    (hbound : c'.counter.toNat < 2 ^ 63) (hconsole : c'.board.console = c₀.board.console ++ written ((c, e) :: h))
    (herrno : c'.errno = lastErrno c₀.errno ((c, e) :: h)) : Client.Terminal c₀ ((c, e) :: h) c' := by
  have hlater := Client.time_mono hf hc
  refine ⟨hel0, hfds.trans ht.fds, hf.trans ht.frequency, hbound, hconsole, herrno, fun t hmem => ?_, ?_⟩
  · rw [List.filterMap_cons] at hmem
    cases hnow : clockRead (c, e) with
    | none => exact (ht.past t (by rwa [hnow] at hmem)).trans hlater
    | some t' =>
      rw [hnow] at hmem
      rcases List.mem_cons.1 hmem with rfl | hold
      · exact hread t hnow ▸ hlater
      · exact (ht.past t hold).trans hlater
  · rw [List.filterMap_cons]
    cases hnow : clockRead (c, e) with
    | none => exact ht.ordered
    | some t' => exact List.pairwise_cons.2 ⟨fun t hold => hread t' hnow ▸ ht.past t hold, ht.ordered⟩

theorem Client.Terminal.step (ht : Client.Terminal c₀ h c) (hf32 : c₀.board.frequency.toNat < 2 ^ 32) {e : ClientEvent}
    (hok : ClientOk c e) : Client.Terminal c₀ ((c, e) :: h) (arch.clientStep c e) := by
  have hread : ∀ t, clockRead (c, e) = some t → t = c.time := fun t hnow =>
    clockRead_eq (ht.frequency ▸ hf32) ht.counter hnow
  cases e with
  | call regs device call =>
    have hcall : Answered c device call (arch.clientStep c (.call regs device call), (arch.clientCall c regs device call).2) :=
      clientCall_answered ht.el0 ht.fds hok
    refine ht.quiet hread hcall.el0 hcall.fds hcall.frequency (Nat.le_of_eq (congrArg BitVec.toNat hcall.counter.symm))
      (hcall.counter.symm ▸ ht.counter) ?_ ?_
    · rw [hcall.console, ht.console, List.append_assoc]
      rfl
    · refine hcall.errno.trans ?_
      rw [ht.errno]
      rfl
  | store p byte =>
    obtain ⟨pa, hpa⟩ := Option.isSome_iff_exists.1 hok
    have hstep : arch.clientStep c (.store p byte) =
        { c with board := { c.board with memory := Function.update c.board.memory pa byte } } := by
      simp only [Arch.clientStep, boardStep, ht.el0, if_true, hpa]
    rw [hstep]
    exact ht.quiet hread ht.el0 rfl rfl le_rfl ht.counter ht.console ht.errno
  | elapse cycles =>
    have hsum : (c.counter + BitVec.ofNat 64 cycles).toNat = c.counter.toNat + cycles := by
      have hlt : c.counter.toNat + cycles < 2 ^ 63 := hok
      rw [BitVec.toNat_add, BitVec.toNat_ofNat]
      omega
    refine ht.quiet hread ht.el0 rfl rfl ?_ ?_ ht.console ht.errno
    · show c.counter.toNat ≤ (c.counter + BitVec.ofNat 64 cycles).toNat
      omega
    · show (c.counter + BitVec.ofNat 64 cycles).toNat < 2 ^ 63
      rw [hsum]
      exact hok

/-- A process sees a terminal and a clock. In every run of calls through SVC #5 whose buffers are mapped where the kernel
touches them, stores of its own and passing time, the console shows exactly the buffers of the calls that succeeded, in order;
every call returns the terminal's value, or -1 and the number of its error in `errno`, which nothing else changes; descriptors 0, 1
and 2 stay open whatever is closed; and the times that `clock_gettime` stores never go back. -/
theorem client_terminal (hel0 : c₀.board.machine.inEl0 = true) (hfds : c₀.board.fds = fdTableInit)
    (hf32 : c₀.board.frequency.toNat < 2 ^ 32) (hc : c₀.counter.toNat < 2 ^ 63) (r : Run ClientOk arch.clientStep c₀ h c) :
    c.board.console = c₀.board.console ++ written h ∧ c.errno = lastErrno c₀.errno h ∧
      (∀ regs device call, ClientOk c (.call regs device call) →
        (arch.clientCall c regs device call).2 = some (answer (call.outcome c))) ∧
      (h.filterMap clockRead).Pairwise fun later earlier => TimeLe earlier later := by
  have hstart : Client.Terminal c₀ [] c₀ :=
    ⟨hel0, hfds, rfl, hc, (List.append_nil _).symm, rfl, fun _ hmem => absurd hmem List.not_mem_nil, List.Pairwise.nil⟩
  have ht : Client.Terminal c₀ h c := r.historyInvariant hstart fun _ _ _ hok ht => ht.step hf32 hok
  exact ⟨ht.console, ht.errno, fun regs device call hok => (clientCall_answered ht.el0 ht.fds hok).value, ht.ordered⟩

end

/-- The first of two tasks (main.c:767-793), with the private page of its domain in the TLB. -/
def greeter : Client where
  board :=
    { machine := twoTaskRun.2
      memory := fun _ => 0
      tlb := [⟨1, 0x41000010, ⟨0x41000000 ||| dataAttributes ||| 0x403, 0, 12⟩⟩]
      console := []
      fds := fdTableInit
      frequency := 62500000 }
  counter := 5000000000
  errno := 0

/-- Two bytes are written to descriptor 1, and then to descriptor 7; the clock is read before and after. -/
def greeting : List ClientEvent :=
  [.store 0x41000010 72, .store 0x41000011 105, .call callDisplay (fun _ => 0) (.close 1),
    .call callDisplay (fun _ => 0) (.clockGettime 1 0x41000020), .call callDisplay (fun _ => 0) (.write 1 0x41000010 2), .elapse 62500000,
    .call callDisplay (fun _ => 0) (.clockGettime 1 0x41000020), .call callDisplay (fun _ => 0) (.write 7 0x41000010 2)]

def greetingRun : ClientHistory × Client := traceFrom boardArch.clientStep [] greeter greeting

theorem client_terminal_greeting : greetingRun.2.board.console = [72, 105] ∧ greetingRun.2.errno = 9 := by
  have ha : Admits ClientOk boardArch.clientStep greeter greeting := by
    refine ⟨?_, ?_, ?_, ?_, ?_, ?_, ?_, ?_, trivial⟩
    all_goals decide +kernel
  have r : Run ClientOk boardArch.clientStep greeter greetingRun.1 greetingRun.2 := Run.start.trace ha
  have hwritten : written greetingRun.1 = [72, 105] := by decide +kernel
  have herrno : lastErrno 0 greetingRun.1 = 9 := by decide +kernel
  generalize greetingRun.1 = h, greetingRun.2 = c at r hwritten herrno ⊢
  obtain ⟨hconsole, hlast, -⟩ := client_terminal (by decide +kernel) rfl (by decide) (by decide) r
  rw [hwritten] at hconsole
  exact ⟨hconsole, hlast.trans herrno⟩

end Lettuce
