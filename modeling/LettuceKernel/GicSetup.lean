import LettuceKernel.Interrupts
/-!
# The interrupts that the GIC lets through (`gic.c:31-68`)

| here | there |
| --- | --- |
| `gicInit`             | `lettuce_gic_init` (gic.c:31) |
| `gicEnableInterrupt`, `gicDisableInterrupt` | `lettuce_gic_enable_interrupt` (:50), `lettuce_gic_disable_interrupt` (:57) |
| `gicSetPriority`      | `lettuce_gic_set_priority` (:64) |

The functions store to the registers of the distributor and of the CPU interface. A word stored to GICD_ISENABLERn sets the enable
bits it has, and one stored to GICD_ICENABLERn clears them, but for the bits of identifiers below 16 that are fixed at 1 (`sgis`);
GICD_IPRIORITYR has a byte for each interrupt.
-/

namespace Lettuce

open Runs

/-- `GICD_BASE` and `GICC_BASE` (gic.h:20). -/
def gicdBase : Reg := 0x08000000
def giccBase : Reg := 0x08010000

/-- `GICD_REG` and `GICC_REG`. -/
def gicdReg (off : BitVec 32) : Reg := gicdBase + off.setWidth 64
def giccReg (off : BitVec 32) : Reg := giccBase + off.setWidth 64

def gicdCtlr : BitVec 32 := 0x000
def gicdIsenabler : BitVec 32 := 0x100
def gicdIcenabler : BitVec 32 := 0x180
def gicdIpriorityr : BitVec 32 := 0x400
def giccCtlr : BitVec 32 := 0x000
def giccPmr : BitVec 32 := 0x004

structure Gic where
  sgis : BitVec 16
  distributor : BitVec 32
  /-- The enable bits, 32 in a word. -/
  enables : Nat → BitVec 32
  priority : Nat → BitVec 8
  cpuInterface : BitVec 32
  priorityMask : BitVec 32

/-- The enable bits that no store clears. -/
def Gic.fixed (g : Gic) (word : Nat) : BitVec 32 := if word = 0 then g.sgis.setWidth 32 else 0

/-- A word stored to the registers above. -/
def Gic.store (g : Gic) (address : Reg) (value : BitVec 32) : Gic :=
  let off := (address - gicdBase).toNat
  if off = 0 then { g with distributor := value }
  else if 0x100 ≤ off ∧ off < 0x180 then
    let word := (off - 0x100) / 4
    { g with enables := Function.update g.enables word (g.enables word ||| value) }
  else if 0x180 ≤ off ∧ off < 0x200 then
    let word := (off - 0x180) / 4
    { g with enables := Function.update g.enables word (g.enables word &&& ~~~value ||| g.fixed word) }
  else if address = giccReg giccCtlr then { g with cpuInterface := value }
  else if address = giccReg giccPmr then { g with priorityMask := value }
  else g

/-- A byte stored to GICD_IPRIORITYR. -/
def Gic.storeByte (g : Gic) (address : Reg) (value : BitVec 8) : Gic :=
  let off := (address - gicdBase).toNat
  if 0x400 ≤ off ∧ off < 0x800 then { g with priority := Function.update g.priority (off - 0x400) value } else g

def gicInit (g : Gic) : Gic :=
  let g := g.store (gicdReg gicdCtlr) 0
  let g := g.store (gicdReg (gicdIcenabler + 0x00)) 0xffffffff
  let g := g.store (gicdReg (gicdIcenabler + 0x04)) 0xffffffff
  let g := g.store (giccReg giccPmr) 0xff
  let g := g.store (giccReg giccCtlr) 1
  g.store (gicdReg gicdCtlr) 1

def gicEnableInterrupt (g : Gic) (intid : BitVec 32) : Gic :=
  g.store (gicdReg (gicdIsenabler + intid / 32 * 4)) (1#32 <<< (intid % 32))

def gicDisableInterrupt (g : Gic) (intid : BitVec 32) : Gic :=
  g.store (gicdReg (gicdIcenabler + intid / 32 * 4)) (1#32 <<< (intid % 32))

def gicSetPriority (g : Gic) (intid : BitVec 32) (priority : BitVec 8) : Gic :=
  g.storeByte (gicdReg gicdIpriorityr + intid.setWidth 64) priority

/-- After reset nothing else is enabled. -/
def gicReset (sgis : BitVec 16) : Gic where
  sgis := sgis
  distributor := 0
  enables := fun word => if word = 0 then sgis.setWidth 32 else 0
  priority := fun _ => 0
  cpuInterface := 0
  priorityMask := 0

inductive GicCall where
  | init
  | enable (intid : BitVec 32)
  | disable (intid : BitVec 32)
  | setPriority (intid : BitVec 32) (priority : BitVec 8)

def gicStep (g : Gic) : GicCall → Gic
  | .init => gicInit g
  | .enable intid => gicEnableInterrupt g intid
  | .disable intid => gicDisableInterrupt g intid
  | .setPriority intid priority => gicSetPriority g intid priority

/-- The identifiers a GICv2 has. -/
def GicOk (_ : Gic) : GicCall → Prop
  | .init => True
  | .enable intid => intid.toNat < 1020
  | .disable intid => intid.toNat < 1020
  | .setPriority intid _ => intid.toNat < 1020

abbrev GicHistory := List (Gic × GicCall)

/-! ## What the calls are for -/

def Gic.isEnabled (g : Gic) (i : Nat) : Bool := (g.enables (i / 32)).getLsbD (i % 32)

/-- Interrupts are forwarded to the CPU interface and from there to the processor, whatever their priority. -/
def Gic.Forwards (g : Gic) : Prop := g.distributor = 1 ∧ g.cpuInterface = 1 ∧ g.priorityMask = 0xff

def Enables (i : Nat) (_ : Gic) : GicCall → Prop
  | .enable intid => intid.toNat = i
  | _ => False

/-- `lettuce_gic_init` disables the first 64. -/
def Disables (i : Nat) (_ : Gic) : GicCall → Prop
  | .init => i < 64
  | .disable intid => intid.toNat = i
  | _ => False

def Configures (_ : Gic) (c : GicCall) : Prop := c = .init

def SetsPriority (i : Nat) (p : BitVec 8) (_ : Gic) : GicCall → Prop
  | .setPriority intid priority => intid.toNat = i ∧ priority = p
  | _ => False

def ChangesPriority (i : Nat) (_ : Gic) : GicCall → Prop
  | .setPriority intid _ => intid.toNat = i
  | _ => False

/-! ## Stores -/

section
variable {g : Gic} {intid : BitVec 32}

theorem gicdReg_offset (off : BitVec 32) : (gicdReg off - gicdBase).toNat = off.toNat := by
  have hoff := off.isLt
  have hbase : gicdBase.toNat = 0x08000000 := rfl
  rw [gicdReg, BitVec.toNat_sub, BitVec.toNat_add, BitVec.toNat_setWidth, hbase]
  omega

/-- The register with the enable bit of an interrupt. -/
theorem enableReg_offset (hid : intid.toNat < 1020) {base : BitVec 32} (hbase : base.toNat ≤ 0x180) :
    (gicdReg (base + intid / 32 * 4) - gicdBase).toNat = base.toNat + 4 * (intid.toNat / 32) := by
  have hfour : (4 : BitVec 32).toNat = 4 := rfl
  have hthirtytwo : (32 : BitVec 32).toNat = 32 := rfl
  rw [gicdReg_offset, BitVec.toNat_add, BitVec.toNat_mul, BitVec.toNat_udiv, hfour, hthirtytwo]
  omega

theorem enableBit_getLsbD {k : Nat} (hk : k < 32) : (1#32 <<< (intid % 32)).getLsbD k = decide (k = intid.toNat % 32) := by
  have hamount : (intid % 32).toNat = intid.toNat % 32 := BitVec.toNat_umod
  rw [BitVec.shiftLeft_eq', hamount, BitVec.getLsbD_shiftLeft, BitVec.getLsbD_one]
  by_cases hlt : k < intid.toNat % 32
  · simp only [hlt, decide_true, Bool.not_true, Bool.and_false, Bool.false_and, Nat.ne_of_lt hlt, decide_false]
  · have hiff : k - intid.toNat % 32 = 0 ↔ k = intid.toNat % 32 := by omega
    have hone : decide (0 < 32) = true := rfl
    simp only [hk, hlt, hone, decide_true, decide_false, Bool.not_false, Bool.true_and, hiff]

/-- A bit of an array of words after one word has changed. -/
theorem isEnabled_update {word : Nat} {value : BitVec 32} (i : Nat) :
    ({ g with enables := Function.update g.enables word value } : Gic).isEnabled i =
      if i / 32 = word then value.getLsbD (i % 32) else g.isEnabled i := by
  simp only [Gic.isEnabled, Function.update_apply]
  split <;> rfl

theorem enable_eq (hid : intid.toNat < 1020) : gicEnableInterrupt g intid = { g with
    enables := Function.update g.enables (intid.toNat / 32) (g.enables (intid.toNat / 32) ||| 1#32 <<< (intid % 32)) } := by
  have hoff : (gicdReg (gicdIsenabler + intid / 32 * 4) - gicdBase).toNat = 0x100 + 4 * (intid.toNat / 32) :=
    enableReg_offset hid (by decide)
  have hword : (0x100 + 4 * (intid.toNat / 32) - 0x100) / 4 = intid.toNat / 32 := by omega
  rw [gicEnableInterrupt, Gic.store]
  simp only [hoff]
  rw [if_neg (by omega), if_pos (by omega), hword]

theorem disable_eq (hid : intid.toNat < 1020) : gicDisableInterrupt g intid = { g with
    enables := Function.update g.enables (intid.toNat / 32)
      (g.enables (intid.toNat / 32) &&& ~~~(1#32 <<< (intid % 32)) ||| g.fixed (intid.toNat / 32)) } := by
  have hoff : (gicdReg (gicdIcenabler + intid / 32 * 4) - gicdBase).toNat = 0x180 + 4 * (intid.toNat / 32) :=
    enableReg_offset hid (by decide)
  have hword : (0x180 + 4 * (intid.toNat / 32) - 0x180) / 4 = intid.toNat / 32 := by omega
  rw [gicDisableInterrupt, Gic.store]
  simp only [hoff]
  rw [if_neg (by omega), if_neg (by omega), if_pos (by omega), hword]

theorem enableBit_eq {i : Nat} (hi : i / 32 = intid.toNat / 32) :
    (1#32 <<< (intid % 32)).getLsbD (i % 32) = decide (intid.toNat = i) := by
  have hiff : i % 32 = intid.toNat % 32 ↔ intid.toNat = i := by omega
  rw [enableBit_getLsbD (Nat.mod_lt i (by decide)), decide_eq_decide]
  exact hiff

theorem enable_isEnabled (hid : intid.toNat < 1020) (i : Nat) :
    (gicEnableInterrupt g intid).isEnabled i = (decide (intid.toNat = i) || g.isEnabled i) := by
  rw [enable_eq hid, isEnabled_update]
  split
  · next hi =>
    rw [BitVec.getLsbD_or, enableBit_eq hi, Gic.isEnabled, hi]
    exact Bool.or_comm _ _
  · next hi =>
    have hne : intid.toNat ≠ i := fun h => hi (by rw [h])
    rw [decide_eq_false hne, Bool.false_or]

/-- Outside the first 16 nothing is fixed. -/
theorem fixed_getLsbD {i : Nat} (hi : 16 ≤ i) : (g.fixed (i / 32)).getLsbD (i % 32) = false := by
  rw [Gic.fixed]
  split
  · rw [BitVec.getLsbD_setWidth, BitVec.getLsbD_of_ge _ _ (by omega), Bool.and_false]
  · exact BitVec.getLsbD_zero

theorem disable_isEnabled (hid : intid.toNat < 1020) {i : Nat} (hge : 16 ≤ i) :
    (gicDisableInterrupt g intid).isEnabled i = (!decide (intid.toNat = i) && g.isEnabled i) := by
  have hlt := Nat.mod_lt i (show 0 < 32 by decide)
  rw [disable_eq hid, isEnabled_update]
  split
  · next hi =>
    have hfixed := fixed_getLsbD (g := g) hge
    rw [hi] at hfixed
    rw [BitVec.getLsbD_or, BitVec.getLsbD_and, BitVec.getLsbD_not, enableBit_eq hi, decide_eq_true hlt, hfixed, Gic.isEnabled, hi,
      Bool.or_false, Bool.true_and]
    exact Bool.and_comm _ _
  · next hi =>
    have hne : intid.toNat ≠ i := fun h => hi (by rw [h])
    rw [decide_eq_false hne, Bool.not_false, Bool.true_and]

/-- What `lettuce_gic_init` stores. -/
theorem gicInit_eq (g : Gic) : gicInit g =
    { sgis := g.sgis
      distributor := 1
      enables := Function.update (Function.update g.enables 0 (g.fixed 0)) 1 (g.fixed 1)
      priority := g.priority
      cpuInterface := 1
      priorityMask := 0xff } := by
  have hclear : ∀ word fixed : BitVec 32, word &&& ~~~(0xffffffff : BitVec 32) ||| fixed = fixed := by
    intro word fixed
    have hnot : ~~~(0xffffffff : BitVec 32) = 0#32 := rfl
    rw [hnot, BitVec.and_zero, BitVec.zero_or]
  have hctlr : ∀ (g : Gic) value, g.store (gicdReg gicdCtlr) value = { g with distributor := value } := fun _ _ => rfl
  have hfirst : ∀ (g : Gic) value, g.store (gicdReg (gicdIcenabler + 0x00)) value =
      { g with enables := Function.update g.enables 0 (g.enables 0 &&& ~~~value ||| g.fixed 0) } := fun _ _ => rfl
  have hsecond : ∀ (g : Gic) value, g.store (gicdReg (gicdIcenabler + 0x04)) value =
      { g with enables := Function.update g.enables 1 (g.enables 1 &&& ~~~value ||| g.fixed 1) } := fun _ _ => rfl
  have hpmr : ∀ (g : Gic) value, g.store (giccReg giccPmr) value = { g with priorityMask := value } := fun _ _ => rfl
  have hcpu : ∀ (g : Gic) value, g.store (giccReg giccCtlr) value = { g with cpuInterface := value } := fun _ _ => rfl
  simp only [gicInit, hctlr, hfirst, hsecond, hpmr, hcpu, hclear]
  rfl

theorem init_isEnabled {i : Nat} (hge : 16 ≤ i) : (gicInit g).isEnabled i = (!decide (i < 64) && g.isEnabled i) := by
  have hfixed := fixed_getLsbD (g := g) hge
  rw [gicInit_eq]
  simp only [Gic.isEnabled, Function.update_apply]
  by_cases hi : i < 64
  · have hword : i / 32 = 1 ∨ i / 32 = 0 := by omega
    rw [decide_eq_true hi, Bool.not_true, Bool.false_and]
    rcases hword with hword | hword
    · rw [if_pos hword, ← hword]
      exact hfixed
    · rw [if_neg (by omega), if_pos hword, ← hword]
      exact hfixed
  · rw [decide_eq_false hi, Bool.not_false, Bool.true_and, if_neg (by omega), if_neg (by omega)]

theorem setPriority_eq (hid : intid.toNat < 1020) (priority : BitVec 8) :
    gicSetPriority g intid priority = { g with priority := Function.update g.priority intid.toNat priority } := by
  have hbase : gicdBase.toNat = 0x08000000 := rfl
  have hbytes : (gicdReg gicdIpriorityr).toNat = 0x08000400 := rfl
  have hoff : (gicdReg gicdIpriorityr + intid.setWidth 64 - gicdBase).toNat = 0x400 + intid.toNat := by
    rw [BitVec.toNat_sub, BitVec.toNat_add, BitVec.toNat_setWidth, hbase, hbytes]
    omega
  have hbyte : 0x400 + intid.toNat - 0x400 = intid.toNat := by omega
  rw [gicSetPriority, Gic.storeByte]
  simp only [hoff]
  rw [if_pos (by omega), hbyte]

end

/-! ## Runs -/

section
variable {sgis : BitVec 16} {h : GicHistory} {g : Gic}

theorem enabled_iff_since (r : Run GicOk gicStep (gicReset sgis) h g) {i : Nat} (hge : 16 ≤ i) :
    g.isEnabled i = true ↔ Since (Enables i) (Disables i) h := by
  have hreset : ¬ (gicReset sgis).isEnabled i = true := by
    have hfixed : (gicReset sgis).isEnabled i = false := fixed_getLsbD (g := gicReset sgis) hge
    rw [hfixed]
    exact Bool.false_ne_true
  refine r.flag_iff_since (F := fun g => g.isEnabled i = true) hreset (fun g c hok hset => ?_) (fun g c hok hset hclear => ?_)
    fun g c hok hset hclear => ?_
  · cases c with
    | enable intid =>
      have hid : intid.toNat = i := hset
      simp only [gicStep, enable_isEnabled hok, hid, decide_true, Bool.true_or]
    | _ => exact hset.elim
  · cases c with
    | init =>
      have hi : i < 64 := hclear
      simp only [gicStep, init_isEnabled hge, hi, decide_true, Bool.not_true, Bool.false_and, Bool.false_eq_true, not_false_eq_true]
    | disable intid =>
      have hid : intid.toNat = i := hclear
      simp only [gicStep, disable_isEnabled hok hge, hid, decide_true, Bool.not_true, Bool.false_and, Bool.false_eq_true,
        not_false_eq_true]
    | _ => exact hclear.elim
  · cases c with
    | init =>
      have hi : ¬ i < 64 := hclear
      simp only [gicStep, init_isEnabled hge, hi, decide_false, Bool.not_false, Bool.true_and]
    | enable intid =>
      have hid : intid.toNat ≠ i := hset
      simp only [gicStep, enable_isEnabled hok, hid, decide_false, Bool.false_or]
    | disable intid =>
      have hid : intid.toNat ≠ i := hclear
      simp only [gicStep, disable_isEnabled hok hge, hid, decide_false, Bool.not_false, Bool.true_and]
    | setPriority intid priority => simp only [gicStep, setPriority_eq hok, Gic.isEnabled]

/-- Nothing stops the forwarding again. -/
theorem forwards_iff (r : Run GicOk gicStep (gicReset sgis) h g) : g.Forwards ↔ ∃ p ∈ h, p.2 = .init := by
  have hsince : g.Forwards ↔ Since Configures (fun _ _ => False) h := by
    have hreset : ¬ (gicReset sgis).Forwards := by
      rintro ⟨hoff, -, -⟩
      have hzero : (0 : BitVec 32) = 1 := hoff
      exact absurd hzero (by decide)
    refine r.flag_iff_since (F := Gic.Forwards) hreset (fun g c _ hset => ?_) (fun _ _ _ _ hclear => hclear.elim)
      fun g c hok hset _ => ?_
    · obtain rfl : c = .init := hset
      simp only [gicStep, gicInit_eq]
      exact ⟨rfl, rfl, rfl⟩
    · cases c with
      | init => exact absurd rfl hset
      | enable intid => simp only [gicStep, enable_eq hok, Gic.Forwards]
      | disable intid => simp only [gicStep, disable_eq hok, Gic.Forwards]
      | setPriority intid priority => simp only [gicStep, setPriority_eq hok, Gic.Forwards]
  rw [hsince]
  constructor
  · exact Since.exists_mem
  · rintro ⟨p, hp, hinit⟩
    clear hsince r
    induction h with
    | nil => exact absurd hp List.not_mem_nil
    | cons q h ih =>
      rcases List.mem_cons.1 hp with rfl | hp
      · exact since_now hinit
      · exact since_later id (ih hp)

theorem priority_iff_since (r : Run GicOk gicStep (gicReset sgis) h g) (i : Nat) {p : BitVec 8} (hp : p ≠ 0) :
    g.priority i = p ↔ Since (SetsPriority i p) (ChangesPriority i) h := by
  refine r.flag_iff_since (F := fun g => g.priority i = p) (fun hzero => hp hzero.symm) (fun g c hok hset => ?_)
    (fun g c hok hset hclear => ?_) fun g c hok hset hclear => ?_
  · cases c with
    | setPriority intid priority =>
      obtain ⟨rfl, rfl⟩ := hset
      simp only [gicStep, setPriority_eq hok, Function.update_self]
    | _ => exact hset.elim
  · cases c with
    | setPriority intid priority =>
      obtain rfl : intid.toNat = i := hclear
      simp only [gicStep, setPriority_eq hok, Function.update_self]
      exact fun heq => hset ⟨rfl, heq⟩
    | _ => exact hclear.elim
  · cases c with
    | init => simp only [gicStep, gicInit_eq]
    | enable intid => simp only [gicStep, enable_eq hok]
    | disable intid => simp only [gicStep, disable_eq hok]
    | setPriority intid priority =>
      have hne : i ≠ intid.toNat := fun heq => hclear heq.symm
      simp only [gicStep, setPriority_eq hok, Function.update_of_ne hne]

/-- The controller does what the calls say: an interrupt is let through exactly when it was enabled and not disabled since, by its
own call or by `lettuce_gic_init`; interrupts are forwarded from the first `lettuce_gic_init` on; a priority is the last one set. -/
theorem gic_follows_calls (r : Run GicOk gicStep (gicReset sgis) h g) {i : Nat} (hge : 16 ≤ i) :
    (g.isEnabled i = true ↔ Since (Enables i) (Disables i) h) ∧ (g.Forwards ↔ ∃ p ∈ h, p.2 = .init) ∧
      ∀ p : BitVec 8, p ≠ 0 → (g.priority i = p ↔ Since (SetsPriority i p) (ChangesPriority i) h) :=
  ⟨enabled_iff_since r hge, forwards_iff r, fun _ hp => priority_iff_since r i hp⟩

/-- The calls before the timer runs (main.c:738-740). -/
theorem gic_follows_calls_vtimer : (gicEnableInterrupt (gicInit (gicReset 0xffff)) intidVtimer).isEnabled 27 = true ∧
    (gicEnableInterrupt (gicInit (gicReset 0xffff)) intidVtimer).isEnabled 30 = false ∧
    (gicEnableInterrupt (gicInit (gicReset 0xffff)) intidVtimer).Forwards := by
  have r : Run GicOk gicStep (gicReset 0xffff)
      [(gicInit (gicReset 0xffff), .enable intidVtimer), (gicReset 0xffff, .init)]
      (gicEnableInterrupt (gicInit (gicReset 0xffff)) intidVtimer) :=
    (Run.start.next GicCall.init trivial).next (GicCall.enable intidVtimer) (show intidVtimer.toNat < 1020 by decide)
  obtain ⟨htimer, hforwards, -⟩ := gic_follows_calls r (show 16 ≤ 27 by decide)
  obtain ⟨hother, -, -⟩ := gic_follows_calls r (show 16 ≤ 30 by decide)
  have hinit := hforwards.2 ⟨_, List.mem_cons_of_mem _ (List.mem_cons_self ..), rfl⟩
  refine ⟨htimer.2 (since_now rfl), Bool.eq_false_iff.2 fun h => ?_, hinit⟩
  rcases hother.1 h with henable | ⟨-, hnever | ⟨hnot, -⟩⟩
  · exact absurd (show intidVtimer.toNat = 30 from henable) (by decide)
  · exact hnever
  · exact hnot (show 30 < 64 by decide)

end

end Lettuce
