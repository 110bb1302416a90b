import Mathlib.Logic.Function.Basic
/-!
# Stage-1 translation of ARMv8-A

Memory is a function from addresses to 64-bit words; `wordAt m base i` and `storeWord` are the
array accesses `base[i]`. On page-aligned arrays of at most 512 words they satisfy the laws of
arrays (`wordAt_storeWord`), so code that fills tables can be followed array by array.

`walk` is the table walk for a 4 KiB granule and 39-bit addresses: three levels, indexed by
`va[38:30]`, `va[29:21]` and `va[20:12]`. It ends in a leaf, a block or page descriptor, together
with the table descriptors on the way, whose hierarchical bits (59-63) restrict the leaf.

| bit | descriptor |
| --- | --- |
| 0, 1    | valid; table (levels 1 and 2) or page (level 3) |
| 6, 7    | AP[1] EL0 has access, AP[2] read-only |
| 10, 11  | access flag, not global |
| 54      | UXN |
| 60      | UXNTable (table descriptors) |
| 61, 62  | APTable[0] no EL0 access, APTable[1] no writes (table descriptors) |
-/

namespace Translation

abbrev Memory := BitVec 64 → BitVec 64

def PageAligned (a : BitVec 64) : Prop := a.toNat % 4096 = 0

instance (a : BitVec 64) : Decidable (PageAligned a) := inferInstanceAs (Decidable (_ = _))

def wordAt (m : Memory) (base : BitVec 64) (i : Nat) : BitVec 64 := m (base + BitVec.ofNat 64 (8 * i))

def storeWord (m : Memory) (base : BitVec 64) (i : Nat) (v : BitVec 64) : Memory :=
  Function.update m (base + BitVec.ofNat 64 (8 * i)) v

/-- One loop over 512 indices that zeroes several arrays. -/
def zeroArrays (m : Memory) (bases : List (BitVec 64)) : Memory :=
  (List.range 512).foldl (fun m i => bases.foldl (fun m base => storeWord m base i 0) m) m

/-! ## Arrays on pages -/

section
variable {m : Memory} {a b v : BitVec 64} {i j : Nat}

/-- Words of page-aligned arrays are at different addresses. -/
theorem address_inj (ha : PageAligned a) (hb : PageAligned b) (hi : i < 512) (hj : j < 512)
    (h : b + BitVec.ofNat 64 (8 * j) = a + BitVec.ofNat 64 (8 * i)) : b = a ∧ j = i := by
  have hnat := congrArg BitVec.toNat h
  have hal := a.isLt
  have hbl := b.isLt
  unfold PageAligned at ha hb
  rw [BitVec.toNat_add, BitVec.toNat_add, BitVec.toNat_ofNat, BitVec.toNat_ofNat,
    Nat.mod_eq_of_lt (show 8 * i < 2 ^ 64 by omega), Nat.mod_eq_of_lt (show 8 * j < 2 ^ 64 by omega),
    Nat.mod_eq_of_lt (by omega), Nat.mod_eq_of_lt (by omega)] at hnat
  exact ⟨BitVec.eq_of_toNat_eq (by omega), by omega⟩

theorem wordAt_storeWord (ha : PageAligned a) (hb : PageAligned b) (hi : i < 512) (hj : j < 512) :
    wordAt (storeWord m a i v) b j = if b = a ∧ j = i then v else wordAt m b j := by
  unfold wordAt storeWord
  split
  · rename_i h
    obtain ⟨rfl, rfl⟩ := h
    rw [Function.update_self]
  · rename_i h
    rw [Function.update_of_ne fun heq => h (address_inj ha hb hi hj heq)]

theorem wordAt_storeWord_same (ha : PageAligned a) (hi : i < 512) (hj : j < 512) :
    wordAt (storeWord m a i v) a j = if j = i then v else wordAt m a j := by
  rw [wordAt_storeWord ha ha hi hj]
  simp only [true_and]

theorem wordAt_storeWord_other (ha : PageAligned a) (hb : PageAligned b) (hi : i < 512) (hj : j < 512) (hne : b ≠ a) :
    wordAt (storeWord m a i v) b j = wordAt m b j := by
  rw [wordAt_storeWord ha hb hi hj, if_neg fun h => hne h.1]

theorem wordAt_zeroWords {bases : List (BitVec 64)} (hbases : ∀ a ∈ bases, PageAligned a) (hb : PageAligned b)
    (hi : i < 512) (hj : j < 512) :
    wordAt (bases.foldl (fun m base => storeWord m base i 0) m) b j =
      if b ∈ bases ∧ j = i then 0 else wordAt m b j := by
  induction bases generalizing m with
  | nil => simp
  | cons a bases ih =>
    rw [List.foldl_cons, ih fun x hx => hbases x (List.mem_cons_of_mem _ hx),
      wordAt_storeWord (hbases a (List.mem_cons_self ..)) hb hi hj]
    by_cases hji : j = i
    · by_cases hba : b = a
      · simp [hji, hba]
      · simp [hji, hba]
    · simp [hji]

theorem wordAt_zeroArrays {bases : List (BitVec 64)} (hbases : ∀ a ∈ bases, PageAligned a) (hb : PageAligned b)
    (hj : j < 512) : wordAt (zeroArrays m bases) b j = if b ∈ bases then 0 else wordAt m b j := by
  -- after `n` rounds the first `n` words of each array are zero
  have hrounds : ∀ n, n ≤ 512 →
      wordAt ((List.range n).foldl (fun m i => bases.foldl (fun m base => storeWord m base i 0) m) m) b j =
        if b ∈ bases ∧ j < n then 0 else wordAt m b j := by
    intro n
    induction n with
    | zero => simp
    | succ n ih =>
      intro hn
      rw [List.range_succ, List.foldl_append, List.foldl_cons, List.foldl_nil,
        wordAt_zeroWords hbases hb (by omega) hj, ih (by omega)]
      by_cases hmem : b ∈ bases
      · by_cases hjn : j = n
        · simp [hmem, hjn]
        · simp only [hmem, hjn, and_false, if_false, true_and]
          congr 1
          exact propext ⟨fun h => by omega, fun h => by omega⟩
      · simp [hmem]
  rw [zeroArrays, hrounds 512 (Nat.le_refl _)]
  simp only [hj, and_true]

end

/-! ## The walk -/

/-- Where a walk ends: the block or page descriptor, the table descriptors that led to it, or-ed,
and how many low bits of the address it leaves alone. -/
structure Leaf where
  descriptor : BitVec 64
  tables : BitVec 64
  offsetBits : Nat
deriving DecidableEq, Repr

/-- Bits 47 to 12 of a table descriptor, or of the base register. -/
def nextTable (d : BitVec 64) : BitVec 64 := d &&& 0x0000FFFFFFFFF000#64

/-- `none` is a translation fault. -/
def walk (m : Memory) (ttbr va : BitVec 64) : Option Leaf :=
  let d1 := wordAt m (nextTable ttbr) (va.extractLsb' 30 9).toNat
  if d1.getLsbD 0 = false then none
  else if d1.getLsbD 1 = false then some ⟨d1, 0, 30⟩
  else
    let d2 := wordAt m (nextTable d1) (va.extractLsb' 21 9).toNat
    if d2.getLsbD 0 = false then none
    else if d2.getLsbD 1 = false then some ⟨d2, d1, 21⟩
    else
      let d3 := wordAt m (nextTable d2) (va.extractLsb' 12 9).toNat
      if d3.getLsbD 0 = false ∨ d3.getLsbD 1 = false then none else some ⟨d3, d1 ||| d2, 12⟩

namespace Leaf

variable (l : Leaf)

def el0Read : Bool := l.descriptor.getLsbD 10 && l.descriptor.getLsbD 6 && !l.tables.getLsbD 61

def el0Write : Bool := l.el0Read && !l.descriptor.getLsbD 7 && !l.tables.getLsbD 62

/-- Execution does not need read access. -/
def el0Execute : Bool := l.descriptor.getLsbD 10 && !l.descriptor.getLsbD 54 && !l.tables.getLsbD 60

def el0Access : Bool := l.el0Read || l.el0Write || l.el0Execute

def nonGlobal : Bool := l.descriptor.getLsbD 11

/-- The physical page, by its address, that `va` lies in. -/
def physicalPage (va : BitVec 64) : Nat :=
  (((l.descriptor.toNat % 0x1000000000000) >>> l.offsetBits) <<< l.offsetBits +
    va.toNat % (1 <<< l.offsetBits)) / 4096 * 4096

end Leaf

section
variable {m : Memory} {ttbr va d1 d2 d3 : BitVec 64}

theorem walk_fault1 (h1 : wordAt m (nextTable ttbr) (va.extractLsb' 30 9).toNat = d1) (hv : d1.getLsbD 0 = false) :
    walk m ttbr va = none := by
  simp only [walk, h1, hv, if_true]

theorem walk_fault2 (h1 : wordAt m (nextTable ttbr) (va.extractLsb' 30 9).toNat = d1) (hv1 : d1.getLsbD 0 = true)
    (ht1 : d1.getLsbD 1 = true) (h2 : wordAt m (nextTable d1) (va.extractLsb' 21 9).toNat = d2)
    (hv2 : d2.getLsbD 0 = false) : walk m ttbr va = none := by
  simp only [walk, h1, hv1, ht1, h2, hv2, Bool.true_eq_false, if_false, if_true]

theorem walk_block2 (h1 : wordAt m (nextTable ttbr) (va.extractLsb' 30 9).toNat = d1) (hv1 : d1.getLsbD 0 = true)
    (ht1 : d1.getLsbD 1 = true) (h2 : wordAt m (nextTable d1) (va.extractLsb' 21 9).toNat = d2)
    (hv2 : d2.getLsbD 0 = true) (ht2 : d2.getLsbD 1 = false) : walk m ttbr va = some ⟨d2, d1, 21⟩ := by
  simp only [walk, h1, hv1, ht1, h2, hv2, ht2, Bool.true_eq_false, if_false, if_true]

theorem walk_level3 (h1 : wordAt m (nextTable ttbr) (va.extractLsb' 30 9).toNat = d1) (hv1 : d1.getLsbD 0 = true)
    (ht1 : d1.getLsbD 1 = true) (h2 : wordAt m (nextTable d1) (va.extractLsb' 21 9).toNat = d2)
    (hv2 : d2.getLsbD 0 = true) (ht2 : d2.getLsbD 1 = true)
    (h3 : wordAt m (nextTable d2) (va.extractLsb' 12 9).toNat = d3) :
    walk m ttbr va = if d3.getLsbD 0 = false ∨ d3.getLsbD 1 = false then none else some ⟨d3, d1 ||| d2, 12⟩ := by
  simp only [walk, h1, hv1, ht1, h2, hv2, ht2, h3, Bool.true_eq_false, if_false]

/-! ## Descriptors -/

theorem addressMask_getLsbD {i : Nat} (hi : i < 64) :
    (0x0000FFFFFFFFF000#64).getLsbD i = decide (12 ≤ i ∧ i < 48) := by
  have hall : ∀ i, i < 64 → (0x0000FFFFFFFFF000#64).getLsbD i = decide (12 ≤ i ∧ i < 48) := by decide
  exact hall i hi

/-- A page-aligned address below `2^48` has no other bits than the address bits. -/
theorem getLsbD_of_aligned {a : BitVec 64} (ha : PageAligned a) (hlt : a.toNat < 0x1000000000000) {i : Nat}
    (hi : i < 12 ∨ 48 ≤ i) : a.getLsbD i = false := by
  rw [← BitVec.testBit_toNat]
  rcases hi with hi | hi
  · have hbit := Nat.testBit_mod_two_pow a.toNat 12 i
    rw [show a.toNat % 2 ^ 12 = 0 from ha, Nat.zero_testBit] at hbit
    simpa [hi] using hbit.symm
  · exact Nat.testBit_lt_two_pow (Nat.lt_of_lt_of_le hlt (Nat.pow_le_pow_right Nat.zero_lt_two hi))

theorem nextTable_of_aligned {a : BitVec 64} (ha : PageAligned a) (hlt : a.toNat < 0x1000000000000) :
    nextTable a = a := by
  apply BitVec.eq_of_getLsbD_eq
  intro i hi
  rw [nextTable, BitVec.getLsbD_and, addressMask_getLsbD hi]
  by_cases hin : 12 ≤ i ∧ i < 48
  · simp only [hin, and_self, decide_true, Bool.and_true]
  · rw [getLsbD_of_aligned ha hlt (by omega), Bool.false_and]

/-- An address with attributes beside it. -/
theorem nextTable_or {a c : BitVec 64} (ha : PageAligned a) (hlt : a.toNat < 0x1000000000000) (hc : nextTable c = 0) :
    nextTable (a ||| c) = a := by
  have hor : nextTable (a ||| c) = nextTable a ||| nextTable c := BitVec.and_or_distrib_right
  rw [hor, hc, nextTable_of_aligned ha hlt]
  exact BitVec.or_zero

/-- The attributes of an address with attributes beside it. -/
theorem getLsbD_or_aligned {a c : BitVec 64} (ha : PageAligned a) (hlt : a.toNat < 0x1000000000000) {i : Nat}
    (hi : i < 12 ∨ 48 ≤ i) : (a ||| c).getLsbD i = c.getLsbD i := by
  rw [BitVec.getLsbD_or, getLsbD_of_aligned ha hlt hi, Bool.false_or]

/-- Clearing the low bits of a page-aligned address changes nothing. -/
theorem and_not_low {a : BitVec 64} (ha : PageAligned a) (hlt : a.toNat < 0x1000000000000) : a &&& ~~~0xfff#64 = a := by
  have hlow : ∀ i, i < 64 → (~~~0xfff#64).getLsbD i = !decide (i < 12) := by decide
  apply BitVec.eq_of_getLsbD_eq
  intro i hi
  rw [BitVec.getLsbD_and, hlow i hi]
  by_cases hin : i < 12
  · rw [getLsbD_of_aligned ha hlt (Or.inl hin), Bool.false_and]
  · simp only [hin, decide_false, Bool.not_false, Bool.and_true]

theorem nextTable_toNat (d : BitVec 64) : (nextTable d).toNat = d.toNat % 0x1000000000000 / 4096 * 4096 := by
  have hshift : d.toNat % 0x1000000000000 / 4096 * 4096 = (d.toNat % 2 ^ 48) >>> 12 <<< 12 := by
    simp only [Nat.shiftLeft_eq, Nat.shiftRight_eq_div_pow, Nat.reducePow]
  rw [hshift]
  apply Nat.eq_of_testBit_eq
  intro i
  rw [BitVec.testBit_toNat, Nat.testBit_shiftLeft, Nat.testBit_shiftRight, Nat.testBit_mod_two_pow,
    BitVec.testBit_toNat, nextTable, BitVec.getLsbD_and]
  by_cases hi : i < 64
  · rw [addressMask_getLsbD hi]
    by_cases hin : 12 ≤ i
    · rw [Nat.add_sub_cancel' hin]
      simp only [hin, true_and, decide_true, Bool.true_and, Bool.and_comm]
    · simp [hin]
  · rw [BitVec.getLsbD_of_ge d i (by omega), show decide (12 + (i - 12) < 48) = false by simp; omega]
    simp

/-- A page is where its descriptor says, whatever the offset. -/
theorem physicalPage_page {d tables a va : BitVec 64} (hd : nextTable d = a) :
    (Leaf.mk d tables 12).physicalPage va = a.toNat := by
  have hpage := nextTable_toNat d
  rw [hd] at hpage
  simp only [Leaf.physicalPage, Nat.shiftRight_eq_div_pow, Nat.shiftLeft_eq, Nat.one_mul]
  omega

end

end Translation
