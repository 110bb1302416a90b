import LettuceKernel.Posix
/-!
# User pointers and supervisor memory

"User pointers are validated and supervisor memory is rejected before use" (sys.c:11). Two things fall short
of it. `write`, `read` and `clock_gettime` compare the *first* address of the buffer with the supervisor range, so a
buffer that starts below it, or wraps around, passes (`supervisor_shield_iff`). The pages below it are not mapped: a
call that gets as far as such a buffer faults in EL1, and one that does not (`read`, which has no input, or a `write` to a
descriptor that is not open) returns. And `nanosleep` reads and tests `tv_nsec` before it looks at the address, so for a
request in supervisor memory the result tells whether that word lies in 0..999999999 (`nanosleep_hides_iff`).
-/

namespace Lettuce

open ByteMemory

/-- Some address of `p..p+n-1` is in supervisor memory, or the range wraps past 2^64. -/
def ReachesSupervisor (p : Reg) (n : Nat) : Prop :=
  (∃ a, p.toNat ≤ a ∧ a < p.toNat + n ∧ kernelMemStart ≤ a ∧ a < kernelMemEnd) ∨ 2 ^ 64 < p.toNat + n

/-- The call returns `-EFAULT`, and nothing was sent to the console or stored. -/
def Refused (v : Services) (r : Services × Reg) : Prop := r = (v, Errno.efault.result)

/-- The range stays clear of supervisor memory, or its first address gives it away. -/
def FirstAddressTells (p : Reg) (n : Nat) : Prop := p = 0 ∨ inSupervisorMemory p = true ∨ ¬ ReachesSupervisor p n

/-! ## Buffers -/

section
variable {v : Services} {fd : BitVec 32} {p count : Reg}

/-- A call that refuses exactly the null pointer and first addresses in supervisor memory. -/
theorem shield_iff {r : Services × Reg} {n : Nat} (h : Refused v r ↔ p = 0 ∨ inSupervisorMemory p = true) :
    (ReachesSupervisor p n → Refused v r) ↔ FirstAddressTells p n := by
  unfold FirstAddressTells
  rw [h, imp_iff_or_not, or_assoc]

/-- The only write operation is the console's. -/
theorem write_op_eq {write : Services → Reg → Reg → Services × Reg}
    (h : ((fdGet v.fds fd).bind fun desc => desc.ops.bind FdOps.write) = some write) : write = consoleWriteOp := by
  obtain ⟨desc, -, hdesc⟩ := Option.bind_eq_some_iff.1 h
  obtain ⟨ops, -, hops⟩ := Option.bind_eq_some_iff.1 hdesc
  cases ops with
  | consoleIn => cases hops
  | consoleOut => exact (Option.some.inj hops).symm

theorem read_op_eq {read : Reg → Reg → Reg}
    (h : ((fdGet v.fds fd).bind fun desc => desc.ops.bind FdOps.read) = some read) : read = consoleReadOp := by
  obtain ⟨desc, -, hdesc⟩ := Option.bind_eq_some_iff.1 h
  obtain ⟨ops, -, hops⟩ := Option.bind_eq_some_iff.1 hdesc
  cases ops with
  | consoleIn => exact (Option.some.inj hops).symm
  | consoleOut => cases hops

/-- The two tests of the address, before what the call does with it. -/
theorem refused_iff {r : Services × Reg} (h : p ≠ 0 → ¬ Refused v r) :
    Refused v (if p = 0 then (v, Errno.efault.result) else if inSupervisorMemory p then (v, Errno.efault.result) else r) ↔
      p = 0 ∨ inSupervisorMemory p = true := by
  by_cases hp : p = 0
  · rw [if_pos hp]
    exact iff_of_true rfl (Or.inl hp)
  · rw [if_neg hp]
    by_cases hs : inSupervisorMemory p = true
    · rw [if_pos hs]
      exact iff_of_true rfl (Or.inr hs)
    · rw [if_neg hs]
      exact iff_of_false (h hp) (not_or.2 ⟨hp, hs⟩)

theorem not_refused_of_result {v' : Services} {x : Reg} (h : x ≠ Errno.efault.result) : ¬ Refused v (v', x) := by
  intro heq
  exact h (congrArg Prod.snd heq)

/-- A console write of at least one byte is seen on the console. -/
theorem consoleWriteOp_not_refused (hp : p ≠ 0) (hcount : count ≠ 0) : ¬ Refused v (consoleWriteOp v p count) := by
  intro h
  have hpos : count.toNat ≠ 0 := fun hz => hcount (BitVec.eq_of_toNat_eq hz)
  have hconsole : (consoleWriteOp v p count).1.console.length = v.console.length := by rw [h]
  rw [consoleWriteOp, if_neg (fun h => hp h.1), if_neg hcount] at hconsole
  simp only [bytes, List.length_append, List.length_map, List.length_range] at hconsole
  omega

theorem consoleReadOp_eq_zero (hp : p ≠ 0) : consoleReadOp p count = 0 := by
  rw [consoleReadOp, if_neg (fun h => hp h.1)]
  split <;> rfl

theorem sysWrite_refused_iff (hcount : count ≠ 0) :
    Refused v (sysWrite v fd p count) ↔ p = 0 ∨ inSupervisorMemory p = true := by
  unfold sysWrite
  rw [if_neg hcount]
  apply refused_iff
  intro hp
  split
  · exact not_refused_of_result (by decide)
  · rename_i write hwrite
    rw [write_op_eq hwrite]
    exact consoleWriteOp_not_refused hp hcount

theorem sysRead_refused_iff (hcount : count ≠ 0) :
    Refused v (sysRead v fd p count) ↔ p = 0 ∨ inSupervisorMemory p = true := by
  unfold sysRead
  rw [if_neg hcount]
  apply refused_iff
  intro hp
  split
  · exact not_refused_of_result (by decide)
  · rename_i read hread
    rw [read_op_eq hread, consoleReadOp_eq_zero hp]
    exact not_refused_of_result (by decide)

theorem sysClockGettime_refused_iff :
    Refused v (sysClockGettime v clockMonotonic p) ↔ p = 0 ∨ inSupervisorMemory p = true := by
  unfold sysClockGettime
  rw [if_neg (by decide)]
  apply refused_iff
  intro _
  split
  · exact not_refused_of_result (by decide)
  · exact not_refused_of_result (by decide)

end

/-- **The supervisor shield looks at one address**: for every descriptor table, descriptor, pointer and count, `write`,
`read` and `clock_gettime` (with the 16 bytes of a `struct timespec`) refuse a range that reaches supervisor
memory if and only if its first address is null or in supervisor memory itself. -/
theorem supervisor_shield_iff (v : Services) (fd : BitVec 32) (p count : Reg) (hcount : count ≠ 0) :
    ((ReachesSupervisor p count.toNat → Refused v (sysWrite v fd p count)) ↔ FirstAddressTells p count.toNat) ∧
    ((ReachesSupervisor p count.toNat → Refused v (sysRead v fd p count)) ↔ FirstAddressTells p count.toNat) ∧
    ((ReachesSupervisor p 16 → Refused v (sysClockGettime v clockMonotonic p)) ↔ FirstAddressTells p 16) :=
  ⟨shield_iff (sysWrite_refused_iff hcount), shield_iff (sysRead_refused_iff hcount), shield_iff sysClockGettime_refused_iff⟩

/-- After `lettuce_fd_table_init`, with `secret` in the first byte of supervisor memory and zeros elsewhere. -/
def servicesBoot (secret : BitVec 8) : Services where
  memory := fun a => if a.toNat = kernelMemStart then secret else 0
  console := []
  fds := fdTableInit
  counter := 5000000000
  frequency := 62500000

/-- The kernel buffer of Test 24 (main.c:877). -/
theorem supervisor_shield_iff_kernel_buffer :
    ReachesSupervisor 0x40082000 10 ∧ Refused (servicesBoot 0) (sysWrite (servicesBoot 0) 1 0x40082000 10) := by
  have hreach : ReachesSupervisor 0x40082000 10 := Or.inl ⟨0x40082000, by decide, by decide, by decide, by decide⟩
  exact ⟨hreach, (supervisor_shield_iff (servicesBoot 0) 1 0x40082000 10 (by decide)).1.2 (Or.inr (Or.inl (by decide))) hreach⟩

/-- Two bytes from 0x3fffffff reach supervisor memory with the second one. `read` answers 0, and `write` to a descriptor that is
not open `-EBADF`; neither gets as far as the buffer, and neither answers `-EFAULT`. -/
theorem shield_misses_second_byte :
    ReachesSupervisor 0x3fffffff 2 ∧
    sysRead (servicesBoot 0x5a) 0 0x3fffffff 2 = (servicesBoot 0x5a, 0) ∧
    ¬ Refused (servicesBoot 0x5a) (sysRead (servicesBoot 0x5a) 0 0x3fffffff 2) ∧
    sysWrite (servicesBoot 0x5a) 5 0x3fffffff 2 = (servicesBoot 0x5a, Errno.ebadf.result) ∧
    ¬ Refused (servicesBoot 0x5a) (sysWrite (servicesBoot 0x5a) 5 0x3fffffff 2) := by
  have hread : sysRead (servicesBoot 0x5a) 0 0x3fffffff 2 = (servicesBoot 0x5a, 0) := by rfl
  have hwrite : sysWrite (servicesBoot 0x5a) 5 0x3fffffff 2 = (servicesBoot 0x5a, Errno.ebadf.result) := by rfl
  refine ⟨Or.inl ⟨0x40000000, by decide, by decide, by decide, by decide⟩, hread, ?_, hwrite, ?_⟩
  · rw [hread]
    exact not_refused_of_result (by decide)
  · rw [hwrite]
    exact not_refused_of_result (by decide)

/-! ## The request of `nanosleep` -/

/-- The request is refused with `-EFAULT`; task table, frame and everything outside are untouched. -/
def NanosleepRefused (s : Scheduler) (frame : TrapFrame) (r : ScheduleResult × Reg) : Prop :=
  r = (⟨s, some frame, none⟩, Errno.efault.result)

/-- The 16 bytes at `req` lie in supervisor memory. -/
def InSupervisor (req : Reg) : Prop := ∀ a, Covers req 16 a → inSupervisorMemory a = true

/-- The memories differ in supervisor memory only. -/
def AgreeOutside (m₁ m₂ : Memory 64) : Prop := ∀ a, inSupervisorMemory a = false → m₁ a = m₂ a

/-- `tv_nsec` passes the test of sys.c:121. -/
def ValidNsec (nsec : BitVec 64) : Prop := 0 ≤ nsec.toInt ∧ nsec.toInt < 1000000000

instance (nsec : BitVec 64) : Decidable (ValidNsec nsec) := inferInstanceAs (Decidable (_ ∧ _))

theorem invalidNsec_iff (nsec : BitVec 64) : nsec.toInt < 0 ∨ nsec.toInt ≥ 1000000000 ↔ ¬ ValidNsec nsec := by
  unfold ValidNsec
  omega

theorem ValidNsec.toNat_lt {nsec : BitVec 64} (h : ValidNsec nsec) : nsec.toNat < 1000000000 := by
  have hlt := nsec.isLt
  unfold ValidNsec at h
  rw [BitVec.toInt_eq_toNat_cond] at h
  split at h
  · omega
  · omega

section
variable {v : Services} {s : Scheduler} {now : BitVec 64} {req rem : Reg} {frame : TrapFrame}

theorem InSupervisor.first (h : InSupervisor req) : inSupervisorMemory req = true := by
  apply h
  simp [Covers]

theorem InSupervisor.ne_zero (h : InSupervisor req) : req ≠ 0 := by
  rintro rfl
  exact absurd h.first (by decide)

/-- A request in supervisor memory is never served, but the error depends on the word at `req + 8`. -/
theorem sysNanosleep_supervisor (h : InSupervisor req) : sysNanosleep v s now req rem (some frame) =
    (⟨s, some frame, none⟩, if ValidNsec (readWord v.memory (req + nsecOffset)) then Errno.efault.result else Errno.einval.result) := by
  unfold sysNanosleep
  rw [if_neg h.ne_zero]
  by_cases hvalid : ValidNsec (readWord v.memory (req + nsecOffset))
  · simp only [invalidNsec_iff, hvalid, h.first, not_true_eq_false, ↓reduceIte]
  · simp only [invalidNsec_iff, hvalid, not_false_eq_true, ↓reduceIte]

theorem nanosleepRefused_iff (h : InSupervisor req) :
    NanosleepRefused s frame (sysNanosleep v s now req rem (some frame)) ↔ ValidNsec (readWord v.memory (req + nsecOffset)) := by
  rw [sysNanosleep_supervisor h]
  unfold NanosleepRefused
  by_cases hvalid : ValidNsec (readWord v.memory (req + nsecOffset))
  · rw [if_pos hvalid]
    exact iff_of_true rfl hvalid
  · rw [if_neg hvalid]
    refine iff_of_false ?_ hvalid
    intro heq
    exact absurd (congrArg Prod.snd heq) (by decide : Errno.einval.result ≠ Errno.efault.result)

end

/-- **What `nanosleep` reveals about supervisor memory**: for a request in supervisor memory and two memories that
differ there only, both runs return `-EFAULT` and leave the tasks and the frame alone if and only if in both memories
the word at `req + 8` is in 0..999999999. -/
theorem nanosleep_hides_iff (v : Services) (s : Scheduler) (now : BitVec 64) (req rem : Reg) (frame : TrapFrame)
    (hreq : InSupervisor req) : ∀ m₁ m₂, AgreeOutside m₁ m₂ →
    ((NanosleepRefused s frame (sysNanosleep { v with memory := m₁ } s now req rem (some frame)) ∧
        NanosleepRefused s frame (sysNanosleep { v with memory := m₂ } s now req rem (some frame))) ↔
      ValidNsec (readWord m₁ (req + nsecOffset)) ∧ ValidNsec (readWord m₂ (req + nsecOffset))) := by
  intro m₁ m₂ _
  exact and_congr (nanosleepRefused_iff hreq) (nanosleepRefused_iff hreq)

theorem inSupervisor_page : InSupervisor 0x40001000 := by
  intro a ha
  have hlt := a.isLt
  have hreq : (0x40001000 : Reg).toNat = 0x40001000 := by decide
  unfold Covers at ha
  rw [BitVec.toNat_sub, hreq] at ha
  rw [inSupervisorMemory_iff]
  unfold kernelMemStart kernelMemEnd
  omega

/-- Zeros, but for the byte at `a`, which is in supervisor memory. -/
def oneByte (a : Reg) (byte : BitVec 8) : Memory 64 := Function.update (fun _ => 0) a byte

theorem agreeOutside_oneByte {a : Reg} (ha : inSupervisorMemory a = true) (b₁ b₂ : BitVec 8) :
    AgreeOutside (oneByte a b₁) (oneByte a b₂) := by
  intro x hx
  have hne : x ≠ a := by
    rintro rfl
    rw [ha] at hx
    cases hx
  rw [oneByte, oneByte, Function.update_of_ne hne, Function.update_of_ne hne]

/-- Two memories that differ before the request. -/
theorem nanosleep_hides_iff_elsewhere :
    let frame := (initialContext 0 0).restore
    NanosleepRefused schedulerBoot frame (sysNanosleep { servicesBoot 0 with memory := oneByte 0x40000000 0x5a } schedulerBoot 7
      0x40001000 0 (some frame)) := by
  intro frame
  have hvalid : ValidNsec (readWord (oneByte 0x40000000 0x5a) (0x40001000 + nsecOffset)) ∧
      ValidNsec (readWord (oneByte 0x40000000 0) (0x40001000 + nsecOffset)) := by decide +kernel
  exact ((nanosleep_hides_iff (servicesBoot 0) schedulerBoot 7 0x40001000 0 frame inSupervisor_page _ _
    (agreeOutside_oneByte (by decide) 0x5a 0)).2 hvalid).1

/-- The sign bit of `tv_nsec`, at 0x4000100f, is told. -/
theorem nanosleep_tells_sign :
    let frame := (initialContext 0 0).restore
    InSupervisor 0x40001000 ∧ AgreeOutside (oneByte 0x4000100f 0) (oneByte 0x4000100f 0x80) ∧
    (sysNanosleep { servicesBoot 0 with memory := oneByte 0x4000100f 0 } schedulerBoot 7 0x40001000 0 (some frame)).2 =
      Errno.efault.result ∧
    (sysNanosleep { servicesBoot 0 with memory := oneByte 0x4000100f 0x80 } schedulerBoot 7 0x40001000 0 (some frame)).2 =
      Errno.einval.result ∧
    Errno.efault.result ≠ Errno.einval.result := by
  intro frame
  exact ⟨inSupervisor_page, agreeOutside_oneByte (by decide) 0 0x80, by decide +kernel, by decide +kernel, by decide⟩

end Lettuce
