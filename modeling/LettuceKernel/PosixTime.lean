import LettuceKernel.PosixPointers
/-!
# Reading the clock and sleeping

`clock_gettime` splits the counter into seconds and a remainder before it multiplies by 10^9, and the
result is the exact floor (`monotonic_clock_exact`). `nanosleep` computes the length of the sleep in counter *cycles*
(`freq` is the frequency of the counter) and adds it to the timer's *tick* count, which advances once in
`freq / hz` cycles: the task sleeps too long by that factor, except in the cases of `SleepsAsRequested`. A
negative `tv_sec` becomes a huge unsigned number and is not rejected. The frequency is a 32-bit field of `cntfrq_el0`.
-/

namespace Lettuce

open ByteMemory Runs

/-- The `struct timespec` at `p`. -/
def timespecAt (m : Memory 64) (p : Reg) : Int × Int := ((readWord m p).toInt, (readWord m (p + nsecOffset)).toInt)

/-- Lexicographic order. -/
def TimeLe (a b : Int × Int) : Prop := a.1 < b.1 ∨ (a.1 = b.1 ∧ a.2 ≤ b.2)

/-- The time `clock_gettime` stores at `tp`. -/
def reportedTime (v : Services) (tp : Reg) : Int × Int := timespecAt (sysClockGettime v clockMonotonic tp).1.memory tp

/-- A pointer the services accept. -/
def Accepted (p : Reg) : Prop := p ≠ 0 ∧ inSupervisorMemory p = false

instance (p : Reg) : Decidable (Accepted p) := inferInstanceAs (Decidable (_ ∧ _))

/-! ## The clock -/

/-- Splitting before the multiplication loses nothing. -/
theorem split_floor (ticks scale : Nat) {freq : Nat} (hf : 0 < freq) :
    ticks / freq * scale + ticks % freq * scale / freq = ticks * scale / freq := by
  have hsplit : ticks * scale = freq * (ticks / freq * scale) + ticks % freq * scale := by
    calc ticks * scale = (freq * (ticks / freq) + ticks % freq) * scale := by rw [Nat.div_add_mod]
      _ = freq * (ticks / freq * scale) + ticks % freq * scale := by rw [Nat.add_mul, Nat.mul_assoc]
  rw [hsplit, Nat.mul_add_div hf]

/-- What the split reports grows with the ticks. -/
theorem split_floor_mono {ticks ticks' : Nat} (freq scale : Nat) (h : ticks ≤ ticks') :
    ticks / freq < ticks' / freq ∨
      (ticks / freq = ticks' / freq ∧ ticks % freq * scale / freq ≤ ticks' % freq * scale / freq) := by
  rcases Nat.lt_or_eq_of_le (Nat.div_le_div_right h (c := freq)) with hlt | heq
  · exact Or.inl hlt
  · right
    refine ⟨heq, Nat.div_le_div_right (Nat.mul_le_mul_right scale ?_)⟩
    have h1 := Nat.div_add_mod ticks freq
    have h2 := Nat.div_add_mod ticks' freq
    rw [heq] at h1
    omega

section
variable {v : Services} {tp : Reg}

theorem frequency_pos (hf : v.frequency ≠ 0) : 0 < v.frequency.toNat := by
  apply Nat.pos_of_ne_zero
  intro hz
  exact hf (BitVec.eq_of_toNat_eq hz)

/-- The product that could overflow is below 2^62. -/
theorem remainder_mul_lt (hf : v.frequency ≠ 0) (hf32 : v.frequency.toNat < 2 ^ 32) :
    (v.counter % v.frequency).toNat * 1000000000 < 2 ^ 62 := by
  have hlt : (v.counter % v.frequency).toNat < v.frequency.toNat := by
    rw [BitVec.toNat_umod]
    exact Nat.mod_lt _ (frequency_pos hf)
  omega

/-- The nanoseconds are below a second. -/
theorem nsec_lt (ticks : Nat) {freq : Nat} (hf : 0 < freq) : ticks % freq * 1000000000 / freq < 1000000000 := by
  rw [Nat.div_lt_iff_lt_mul hf, Nat.mul_comm]
  exact Nat.mul_lt_mul_of_pos_left (Nat.mod_lt _ hf) (by decide)

/-- What a call that is not refused stores. -/
theorem sysClockGettime_eq (htp : Accepted tp) (hf : v.frequency ≠ 0) : sysClockGettime v clockMonotonic tp =
    ({ v with
        memory := writeWord (writeWord v.memory tp (v.counter / v.frequency)) (tp + nsecOffset)
          (v.counter % v.frequency * 1000000000#64 / v.frequency) }, 0) := by
  rw [sysClockGettime, if_neg (by simp), if_neg htp.1, if_neg (by simp [htp.2]), if_neg hf]

theorem reportedTime_eq (htp : Accepted tp) (hf : v.frequency ≠ 0) (hf32 : v.frequency.toNat < 2 ^ 32)
    (hc : v.counter.toNat < 2 ^ 63) :
    (reportedTime v tp).1 = (v.counter.toNat / v.frequency.toNat : Nat) ∧
    (reportedTime v tp).2 = (v.counter.toNat % v.frequency.toNat * 1000000000 / v.frequency.toNat : Nat) := by
  have hprod := remainder_mul_lt hf hf32
  have hlt := nsec_lt v.counter.toNat (frequency_pos hf)
  have hsec : (v.counter / v.frequency).toNat = v.counter.toNat / v.frequency.toNat := BitVec.toNat_udiv
  have hnsec : (v.counter % v.frequency * 1000000000#64 / v.frequency).toNat =
      v.counter.toNat % v.frequency.toNat * 1000000000 / v.frequency.toNat := by
    rw [BitVec.toNat_udiv, BitVec.toNat_mul, Nat.mod_eq_of_lt, BitVec.toNat_umod]
    · rfl
    · exact Nat.lt_of_lt_of_le hprod (by decide)
  unfold reportedTime timespecAt
  rw [sysClockGettime_eq htp hf]
  simp only [readWord_writeWord, readWord_writeWord_nsec]
  have hle : v.counter.toNat / v.frequency.toNat ≤ v.counter.toNat := Nat.div_le_self _ _
  constructor
  · rw [BitVec.toInt_eq_toNat_of_lt (by omega), hsec]
  · rw [BitVec.toInt_eq_toNat_of_lt (by omega), hnsec]

end

/-- **The monotonic clock is exact and monotone**: with a nonzero 32-bit frequency and a counter below 2^63,
`clock_gettime` succeeds, its product does not overflow, it stores seconds and nanoseconds in their ranges that
make up the floor of `ticks * 10^9 / freq`, and later counter values give later times. -/
theorem monotonic_clock_exact (freq : BitVec 64) (hf : freq ≠ 0) (hf32 : freq.toNat < 2 ^ 32) :
    (∀ (v : Services) (tp : Reg), v.frequency = freq → v.counter.toNat < 2 ^ 63 → Accepted tp →
      (sysClockGettime v clockMonotonic tp).2 = 0 ∧ (v.counter % v.frequency).toNat * 1000000000 < 2 ^ 64 ∧
      0 ≤ (reportedTime v tp).1 ∧ 0 ≤ (reportedTime v tp).2 ∧ (reportedTime v tp).2 < 1000000000 ∧
      (reportedTime v tp).1 * 1000000000 + (reportedTime v tp).2 = (v.counter.toNat * 1000000000 / freq.toNat : Nat)) ∧
    (∀ (v v' : Services) (tp tp' : Reg), v.frequency = freq → v'.frequency = freq → v'.counter.toNat < 2 ^ 63 →
      Accepted tp → Accepted tp' → v.counter.toNat ≤ v'.counter.toNat → TimeLe (reportedTime v tp) (reportedTime v' tp')) := by
  constructor
  · rintro v tp rfl hc htp
    have hpos := frequency_pos hf
    have hprod := remainder_mul_lt hf hf32
    have hlt := nsec_lt v.counter.toNat hpos
    have hfloor := split_floor v.counter.toNat 1000000000 hpos
    obtain ⟨hsec, hnsec⟩ := reportedTime_eq htp hf hf32 hc
    rw [hsec, hnsec]
    refine ⟨by rw [sysClockGettime_eq htp hf], by omega, Int.natCast_nonneg _, Int.natCast_nonneg _, Int.ofNat_lt.2 hlt, ?_⟩
    rw [← hfloor, Int.natCast_add, Int.natCast_mul]
    rfl
  · rintro v v' tp tp' rfl hf' hc' htp htp' hle
    obtain ⟨hsec, hnsec⟩ := reportedTime_eq htp hf hf32 (Nat.lt_of_le_of_lt hle hc')
    obtain ⟨hsec', hnsec'⟩ := reportedTime_eq htp' (hf' ▸ hf) (hf' ▸ hf32) hc'
    unfold TimeLe
    rw [hsec, hnsec, hsec', hnsec', hf']
    rcases split_floor_mono v.frequency.toNat 1000000000 hle with hlt | ⟨heq, hle⟩
    · left
      exact_mod_cast hlt
    · right
      exact ⟨by exact_mod_cast heq, by exact_mod_cast hle⟩

/-- 62.5 MHz and 5000000000 cycles: 80 seconds. -/
theorem monotonic_clock_exact_boot :
    (reportedTime (servicesBoot 0) 0x41000010).1 * 1000000000 + (reportedTime (servicesBoot 0) 0x41000010).2 = 80000000000 :=
  ((monotonic_clock_exact 62500000 (by decide) (by decide)).1 (servicesBoot 0) 0x41000010 rfl (by decide) (by decide)).2.2.2.2.2

/-! ## Sleeping -/

/-- The cycles of the counter in `sec` seconds and `nsec` nanoseconds. -/
def requestedCycles (freq sec nsec : Nat) : Nat := sec * freq + nsec * freq / 1000000000

/-- A sleep from tick `now` to tick `deadline`, with `interval` cycles a tick, lasts `cycles` rounded up by less than two ticks. -/
def SleepsFor (cycles now deadline interval : Nat) : Prop :=
  (cycles : Int) ≤ ((deadline : Int) - now) * interval ∧ ((deadline : Int) - now) * interval < cycles + 2 * interval

/-- When the code's deadline is right: the sum with `now` does not wrap and a tick is one cycle, or the request is so short
that the factor does not show. -/
def SleepsAsRequested (freq interval now sec nsec : Nat) : Prop :=
  now + requestedCycles freq sec nsec < 2 ^ 64 ∧
    (interval = 1 ∨ requestedCycles freq sec nsec ≤ 2 ∨ (interval = 2 ∧ requestedCycles freq sec nsec = 3))

instance (freq interval now sec nsec : Nat) : Decidable (SleepsAsRequested freq interval now sec nsec) :=
  inferInstanceAs (Decidable (_ ∧ _))

section
variable {cycles now ticks interval freq sec nsec : Nat}

/-- The deadline in the task is the 64-bit sum: a sum that wraps lies before `now`. -/
theorem sleepsFor_iff (hnow : now < 2 ^ 64) (hticks : ticks < 2 ^ 64) (hi : 1 ≤ interval) :
    SleepsFor cycles now ((now + ticks) % 2 ^ 64) interval ↔
      now + ticks < 2 ^ 64 ∧ cycles ≤ ticks * interval ∧ ticks * interval < cycles + 2 * interval := by
  unfold SleepsFor
  by_cases hfit : now + ticks < 2 ^ 64
  · have hdiff : (((now + ticks) % 2 ^ 64 : Nat) : Int) - now = ticks := by
      rw [Nat.mod_eq_of_lt hfit]
      omega
    rw [hdiff, and_iff_right hfit]
    exact_mod_cast Iff.rfl
  · refine iff_of_false ?_ fun h => hfit h.1
    rintro ⟨hle, -⟩
    have hneg : (((now + ticks) % 2 ^ 64 : Nat) : Int) - now < 0 := by omega
    have hprod : ((((now + ticks) % 2 ^ 64 : Nat) : Int) - now) * interval < 0 :=
      Int.mul_neg_of_neg_of_pos hneg (by omega)
    omega

/-- Taking cycles for ticks stretches the sleep by `interval`. -/
theorem stretched_iff (hi : 1 ≤ interval) :
    cycles ≤ cycles * interval ∧ cycles * interval < cycles + 2 * interval ↔
      interval = 1 ∨ cycles ≤ 2 ∨ (interval = 2 ∧ cycles = 3) := by
  have hle : cycles ≤ cycles * interval := Nat.le_mul_of_pos_right _ hi
  rw [and_iff_right hle]
  rcases Nat.lt_or_ge interval 3 with hsmall | hlarge
  · have hcases : interval = 1 ∨ interval = 2 := by omega
    rcases hcases with rfl | rfl
    · omega
    · omega
  · constructor
    · intro hlt
      right
      left
      by_contra hthree
      -- three cycles or more are stretched by two intervals at least
      have hstretch : 3 * (interval - 1) ≤ cycles * (interval - 1) := Nat.mul_le_mul_right _ (by omega)
      have hsplit : cycles * interval = cycles + cycles * (interval - 1) := by
        rw [Nat.mul_sub_one]
        omega
      omega
    · rintro (hone | htwo | ⟨htwo, -⟩)
      · omega
      · have hstretch : cycles * (interval - 1) ≤ 2 * (interval - 1) := Nat.mul_le_mul_right _ htwo
        have hsplit : cycles * interval = cycles + cycles * (interval - 1) := by
          rw [Nat.mul_sub_one]
          omega
        omega
      · omega

/-- Nanoseconds of less than a second, times a 32-bit frequency, do not wrap. -/
theorem nsec_mul_lt (hnsec : nsec < 1000000000) (hf32 : freq < 2 ^ 32) : nsec * freq < 2 ^ 64 := by
  have hle : nsec * freq ≤ 1000000000 * 2 ^ 32 := Nat.mul_le_mul (by omega) (by omega)
  omega

/-- Where the cycles fit in 64 bits, no step of the computation wraps. -/
theorem sleepTicks_toNat {freq sec nsec : BitVec 64} (hnsec : nsec.toNat < 1000000000) (hf32 : freq.toNat < 2 ^ 32)
    (hcycles : requestedCycles freq.toNat sec.toNat nsec.toNat < 2 ^ 64) :
    (sleepTicks freq sec nsec).toNat = requestedCycles freq.toNat sec.toNat nsec.toNat := by
  have hprod := nsec_mul_lt hnsec hf32
  unfold requestedCycles at hcycles ⊢
  have hsec : sec.toNat * freq.toNat < 2 ^ 64 := by omega
  have hbillion : (1000000000#64).toNat = 1000000000 := by decide
  rw [sleepTicks, BitVec.toNat_add, BitVec.toNat_udiv, BitVec.toNat_mul, BitVec.toNat_mul, hbillion, Nat.mod_eq_of_lt hsec,
    Nat.mod_eq_of_lt hprod, Nat.mod_eq_of_lt hcycles]

end

section
variable {v : Services} {s : Scheduler} {now : BitVec 64} {req rem : Reg} {trapFrame : Option TrapFrame} {c : Slot}

/-- A request that is not refused puts the current task to sleep, whatever the sign of `tv_sec`. -/
theorem sysNanosleep_eq (hreq : Accepted req) (hvalid : ValidNsec (readWord v.memory (req + nsecOffset))) :
    sysNanosleep v s now req rem trapFrame = (schedulerSleepCurrent s
      (sleepTicks v.frequency (readWord v.memory req) (readWord v.memory (req + nsecOffset))) now trapFrame, 0) := by
  unfold sysNanosleep
  simp only [invalidNsec_iff, hvalid, hreq.1, hreq.2, not_true_eq_false, Bool.false_eq_true, ↓reduceIte]

theorem sysNanosleep_invalid (hreq : Accepted req) (hinvalid : ¬ ValidNsec (readWord v.memory (req + nsecOffset))) :
    sysNanosleep v s now req rem trapFrame = (⟨s, trapFrame, none⟩, Errno.einval.result) := by
  unfold sysNanosleep
  simp only [invalidNsec_iff, hinvalid, hreq.1, not_false_eq_true, ↓reduceIte]

/-- `do_schedule` may wake or switch, but the deadline stays as it was stored. -/
theorem sleepCurrent_deadline (ticks : BitVec 64) (hc : s.current = some c) :
    ((schedulerSleepCurrent s ticks now trapFrame).sched.tasks c).sleepDeadlineTicks = (now.toNat + ticks.toNat) % 2 ^ 64 := by
  have hmove := doSchedule_move (s.setTask c ((s.tasks c).sleepUntil now.toNat ticks.toNat)) now.toNat trapFrame false c
  unfold schedulerSleepCurrent
  rw [hc]
  simp only
  rw [ident_sleepDeadlineTicks hmove.ident]
  simp only [Scheduler.setTask, Function.update_self, Task.sleepUntil]

/-- The deadline that is stored, against the one that was asked for. -/
theorem stored_deadline_iff {sec nsec : BitVec 64} {hz : BitVec 32} (hnsec : nsec.toNat < 1000000000)
    (hf32 : v.frequency.toNat < 2 ^ 32) (hcycles : requestedCycles v.frequency.toNat sec.toNat nsec.toNat < 2 ^ 64)
    (hi : 1 ≤ (timerInterval v.frequency hz).toNat) :
    SleepsFor (requestedCycles v.frequency.toNat sec.toNat nsec.toNat) now.toNat
        ((now.toNat + (sleepTicks v.frequency sec nsec).toNat) % 2 ^ 64) (timerInterval v.frequency hz).toNat ↔
      SleepsAsRequested v.frequency.toNat (timerInterval v.frequency hz).toNat now.toNat sec.toNat nsec.toNat := by
  rw [sleepsFor_iff now.isLt (sleepTicks v.frequency sec nsec).isLt hi, sleepTicks_toNat hnsec hf32 hcycles,
    stretched_iff hi, SleepsAsRequested]

end

/-- **How long `nanosleep` sleeps**: for every 32-bit frequency, rate, tick count and accepted request of cycles that fit in 64 bits, the
deadline stored in the current task is the requested time, rounded up by less than two ticks, if and only if
`SleepsAsRequested` holds. A negative `tv_sec` is rejected, with the task unchanged, if and only if `tv_nsec` is
out of range too. -/
theorem nanosleep_as_requested_iff (v : Services) (s : Scheduler) (now : BitVec 64) (hz : BitVec 32) (req rem : Reg)
    (trapFrame : Option TrapFrame) (c : Slot) (hc : s.current = some c) (hreq : Accepted req) :
    let freq := v.frequency.toNat
    let interval := (timerInterval v.frequency hz).toNat
    let sec := readWord v.memory req
    let nsec := readWord v.memory (req + nsecOffset)
    let r := sysNanosleep v s now req rem trapFrame
    (freq < 2 ^ 32 → 0 ≤ sec.toInt → ValidNsec nsec → requestedCycles freq sec.toNat nsec.toNat < 2 ^ 64 → 1 ≤ interval →
      (SleepsFor (requestedCycles freq sec.toNat nsec.toNat) now.toNat (r.1.sched.tasks c).sleepDeadlineTicks interval ↔
        SleepsAsRequested freq interval now.toNat sec.toNat nsec.toNat)) ∧
    (sec.toInt < 0 → ((r.2 = Errno.einval.result ∧ r.1.sched.tasks c = s.tasks c) ↔ ¬ ValidNsec nsec)) := by
  intro freq interval sec nsec r
  constructor
  · intro hf32 _ hvalid hcycles hi
    have hdeadline : (r.1.sched.tasks c).sleepDeadlineTicks = (now.toNat + (sleepTicks v.frequency sec nsec).toNat) % 2 ^ 64 := by
      simp only [r, sysNanosleep_eq hreq hvalid]
      exact sleepCurrent_deadline _ hc
    rw [hdeadline]
    exact stored_deadline_iff hvalid.toNat_lt hf32 hcycles hi
  · intro _
    by_cases hvalid : ValidNsec nsec
    · refine iff_of_false ?_ (not_not_intro hvalid)
      rintro ⟨hresult, -⟩
      simp only [r, sysNanosleep_eq hreq hvalid] at hresult
      exact absurd hresult (by decide)
    · refine iff_of_true ?_ hvalid
      simp only [r, sysNanosleep_invalid hreq hvalid, and_self]

/-- One task, adopted and running. -/
def loneTask : Scheduler :=
  (traceFrom schedStep [] (schedulerInit schedulerBoot) [.create 10 100 0x1000 0x2000, .adopt firstSlot, .start]).2

/-- Its registers at the `svc`. -/
def loneFrame : Option TrapFrame := some (initialContext 0x1004 0x2000).restore

/-- A request of `sec` seconds and `nsec` nanoseconds on the private page of domain A, at 62.5 MHz. -/
def requesting (sec nsec : BitVec 64) : Services :=
  { servicesBoot 0 with memory := writeWord (writeWord (fun _ => 0) 0x41000010 sec) (0x41000010 + nsecOffset) nsec }

/-- 32 nanoseconds are two cycles, too few for the factor to show; a negative `tv_sec` is caught by a negative `tv_nsec`. -/
theorem nanosleep_as_requested_iff_short :
    SleepsFor 2 7 (((sysNanosleep (requesting 0 32) loneTask 7 0x41000010 0 loneFrame).1.sched.tasks firstSlot).sleepDeadlineTicks) 625000 ∧
    (sysNanosleep (requesting (-1) (-1)) loneTask 7 0x41000010 0 loneFrame).2 = Errno.einval.result := by
  have hfacts : loneTask.current = some firstSlot ∧
      readWord (requesting 0 32).memory 0x41000010 = 0 ∧ readWord (requesting 0 32).memory (0x41000010 + nsecOffset) = 32 ∧
      readWord (requesting (-1) (-1)).memory 0x41000010 = -1 ∧
      readWord (requesting (-1) (-1)).memory (0x41000010 + nsecOffset) = -1 := by decide +kernel
  obtain ⟨hc, hsec, hnsec, hsec', hnsec'⟩ := hfacts
  have hshort := (nanosleep_as_requested_iff (requesting 0 32) loneTask 7 0 0x41000010 0 loneFrame firstSlot hc (by decide)).1
  have hneg := (nanosleep_as_requested_iff (requesting (-1) (-1)) loneTask 7 0 0x41000010 0 loneFrame firstSlot hc (by decide)).2
  simp only [hsec, hnsec] at hshort
  simp only [hsec', hnsec'] at hneg
  exact ⟨(hshort (by decide) (by decide) (by decide) (by decide) (by decide)).2 (by decide), ((hneg (by decide)).2 (by decide)).1⟩

/-- One second at 100 Hz: 62500000 ticks of 625000 cycles, a week and not a second. Minus one second: accepted, and the
deadline is just below 2^64. -/
theorem nanosleep_stretches_second :
    (timerInterval 62500000 100).toNat = 625000 ∧
    ((sysNanosleep (requesting 1 0) loneTask 7 0x41000010 0 loneFrame).1.sched.tasks firstSlot).sleepDeadlineTicks = 7 + 62500000 ∧
    ¬ SleepsFor (requestedCycles 62500000 1 0) 7 (7 + 62500000) 625000 ∧
    (sysNanosleep (requesting (-1) 0) loneTask 7 0x41000010 0 loneFrame).2 = 0 ∧
    ((sysNanosleep (requesting (-1) 0) loneTask 7 0x41000010 0 loneFrame).1.sched.tasks firstSlot).sleepDeadlineTicks =
      2 ^ 64 - 62500000 + 7 := by
  refine ⟨by decide, by decide +kernel, ?_, by decide +kernel, by decide +kernel⟩
  unfold SleepsFor requestedCycles
  omega

end Lettuce
