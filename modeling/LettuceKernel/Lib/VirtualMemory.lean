import LettuceKernel.Lib.Translation
import LettuceKernel.Lib.ByteMemory
/-!
# Byte memory behind stage-1 translation

Physical memory is a memory of bytes; a table walk reads it through `wordsOf`. A leaf gives the physical address
of a byte and the rights of both exception levels.

| bit | EL1 |
| --- | --- |
| 7   | AP[2] read-only, for EL1 as for EL0 |
| 10  | access flag |
| 62  | APTable[1] no writes, at any level |

EL1 may use pages that EL0 has access to: PSTATE.PAN is clear. A translation cache keeps the descriptor, its
size and the hierarchical bits, but not where the tables are (`Leaf.cached`).
-/

namespace Translation

open ByteMemory (load Covers)

/-- The words that a walk sees. -/
def wordsOf (b : ByteMemory.Memory 64) : Memory := fun a => BitVec.ofNat 64 (load b a 8)

/-- A memory that was written word by word, as bytes (little-endian). -/
def bytesOf (m : Memory) : ByteMemory.Memory 64 := fun a =>
  (m (BitVec.ofNat 64 (a.toNat / 8 * 8))).extractLsb' (8 * (a.toNat % 8)) 8

/-- Pages by number. -/
def pageOf (a : BitVec 64) : Nat := a.toNat / 4096 * 4096

/-! ## Words and bytes -/

section
variable {b : ByteMemory.Memory 64} {m : Memory} {a p va ttbr : BitVec 64} {i : Nat}

theorem wordsOf_congr {b' : ByteMemory.Memory 64} (h : ∀ c, Covers a 8 c → b c = b' c) : wordsOf b a = wordsOf b' a := by
  rw [wordsOf, ByteMemory.load_congr h, wordsOf]

/-- The words of a page are made of its bytes. -/
theorem covers_page (ha : PageAligned a) (hi : i < 512) (hc : Covers (a + BitVec.ofNat 64 (8 * i)) 8 p) :
    pageOf p = a.toNat := by
  have hal := a.isLt
  have hpl := p.isLt
  unfold PageAligned at ha
  unfold Covers at hc
  rw [BitVec.toNat_sub, BitVec.toNat_add, BitVec.toNat_ofNat, Nat.mod_eq_of_lt (show 8 * i < 2 ^ 64 by omega),
    Nat.mod_eq_of_lt (show a.toNat + 8 * i < 2 ^ 64 by omega)] at hc
  unfold pageOf
  omega

theorem wordAt_congr {b' : ByteMemory.Memory 64} (ha : PageAligned a) (hi : i < 512) (h : ∀ p, pageOf p = a.toNat → b p = b' p) :
    wordAt (wordsOf b) a i = wordAt (wordsOf b') a i :=
  wordsOf_congr fun p hc => h p (covers_page ha hi hc)

/-- Byte `k` of the word at `a`. -/
theorem bytesOf_add (ha : a.toNat % 8 = 0) {k : Nat} (hk : k < 8) :
    (bytesOf m (a + BitVec.ofNat 64 k)).toNat = (m a).toNat / 256 ^ k % 256 := by
  have hal := a.isLt
  have hsum : (a + BitVec.ofNat 64 k).toNat = a.toNat + k := by
    rw [BitVec.toNat_add, BitVec.toNat_ofNat, Nat.mod_eq_of_lt (show k < 2 ^ 64 by omega), Nat.mod_eq_of_lt (by omega)]
  have hbase : BitVec.ofNat 64 (a.toNat / 8 * 8) = a := by
    apply BitVec.eq_of_toNat_eq
    rw [BitVec.toNat_ofNat, Nat.mod_eq_of_lt (by omega)]
    omega
  unfold bytesOf
  rw [hsum, show (a.toNat + k) / 8 * 8 = a.toNat / 8 * 8 by omega, show (a.toNat + k) % 8 = k by omega, hbase,
    BitVec.extractLsb'_toNat, Nat.shiftRight_eq_div_pow, Nat.pow_mul]

theorem wordsOf_bytesOf (ha : a.toNat % 8 = 0) : wordsOf (bytesOf m) a = m a := by
  have hbyte := fun k (hk : k < 8) => bytesOf_add (m := m) ha hk
  have h0 := hbyte 0 (by decide)
  have h1 := hbyte 1 (by decide)
  have h2 := hbyte 2 (by decide)
  have h3 := hbyte 3 (by decide)
  have h4 := hbyte 4 (by decide)
  have h5 := hbyte 5 (by decide)
  have h6 := hbyte 6 (by decide)
  have h7 := hbyte 7 (by decide)
  have hlt := (m a).isLt
  have hadd : ∀ k, a + BitVec.ofNat 64 k + 1#64 = a + BitVec.ofNat 64 (k + 1) := by
    intro k
    rw [BitVec.add_assoc, BitVec.ofNat_add]
  apply BitVec.eq_of_toNat_eq
  rw [wordsOf, BitVec.toNat_ofNat]
  simp only [load]
  rw [show a + 1#64 = a + BitVec.ofNat 64 1 from rfl, hadd, hadd, hadd, hadd, hadd, hadd, h1, h2, h3, h4, h5, h6, h7]
  rw [show a = a + BitVec.ofNat 64 0 by simp, h0, show a + BitVec.ofNat 64 0 = a by simp]
  simp only [Nat.reducePow, Nat.div_one]
  omega

/-! ## Leaves -/

/-- The physical address of the byte at `va`. -/
def Leaf.physicalAddress (l : Leaf) (va : BitVec 64) : BitVec 64 :=
  BitVec.ofNat 64 (((l.descriptor.toNat % 0x1000000000000) >>> l.offsetBits) <<< l.offsetBits + va.toNat % (1 <<< l.offsetBits))

def Leaf.el1Read (l : Leaf) : Bool := l.descriptor.getLsbD 10

def Leaf.el1Write (l : Leaf) : Bool := l.descriptor.getLsbD 10 && !l.descriptor.getLsbD 7 && !l.tables.getLsbD 62

/-- What the cache does not tag with an ASID, and how much of an address a leaf translates. -/
def Leaf.isGlobal (l : Leaf) : Bool := !l.nonGlobal

def Leaf.samePage (l : Leaf) (va va' : BitVec 64) : Bool := decide (va >>> l.offsetBits = va' >>> l.offsetBits)

def Leaf.cached (l : Leaf) : Leaf := { l with tables := l.tables &&& 0xF800000000000000#64 }

/-- The walk for a 39-bit address space: beyond it every address faults. -/
def walkCached (m : Memory) (ttbr va : BitVec 64) : Option Leaf :=
  if va.toNat < 0x8000000000 then (walk m ttbr va).map Leaf.cached else none

section
variable (l : Leaf)

theorem cached_tables {i : Nat} (hi : 59 ≤ i) (hi' : i < 64) : l.cached.tables.getLsbD i = l.tables.getLsbD i := by
  have hmask : ∀ i, i < 64 → 59 ≤ i → (0xF800000000000000#64).getLsbD i = true := by decide
  rw [Leaf.cached, BitVec.getLsbD_and, hmask i hi' hi, Bool.and_true]

@[simp] theorem cached_el0Read : l.cached.el0Read = l.el0Read := by
  rw [Leaf.el0Read, Leaf.el0Read, cached_tables l (by decide) (by decide)]
  rfl

@[simp] theorem cached_el0Write : l.cached.el0Write = l.el0Write := by
  rw [Leaf.el0Write, Leaf.el0Write, cached_el0Read, cached_tables l (by decide) (by decide)]
  rfl

@[simp] theorem cached_el1Read : l.cached.el1Read = l.el1Read := rfl

@[simp] theorem cached_el1Write : l.cached.el1Write = l.el1Write := by
  rw [Leaf.el1Write, Leaf.el1Write, cached_tables l (by decide) (by decide)]
  rfl

@[simp] theorem cached_isGlobal : l.cached.isGlobal = l.isGlobal := rfl

@[simp] theorem cached_samePage (va va' : BitVec 64) : l.cached.samePage va va' = l.samePage va va' := rfl

@[simp] theorem cached_physicalAddress (va : BitVec 64) : l.cached.physicalAddress va = l.physicalAddress va := rfl

end

theorem physicalAddress_page {l : Leaf} (hl : l.offsetBits ≤ 39) : pageOf (l.physicalAddress va) = l.physicalPage va := by
  have hle : ∀ x n : Nat, x >>> n <<< n ≤ x := fun x n => by
    rw [Nat.shiftLeft_eq, Nat.shiftRight_eq_div_pow]
    exact Nat.div_mul_le_self x (2 ^ n)
  have hbase := hle (l.descriptor.toNat % 0x1000000000000) l.offsetBits
  have hoffset : va.toNat % (1 <<< l.offsetBits) < 2 ^ 39 := by
    rw [Nat.shiftLeft_eq, Nat.one_mul]
    exact Nat.lt_of_lt_of_le (Nat.mod_lt _ (Nat.two_pow_pos _)) (Nat.pow_le_pow_right (by decide) hl)
  unfold pageOf Leaf.physicalAddress Leaf.physicalPage
  rw [BitVec.toNat_ofNat, Nat.mod_eq_of_lt (by omega)]

/-! ## Walks over equal tables -/

/-- The tables on the way of a walk decide it. -/
theorem walk_congr {m m' : Memory} (h1 : ∀ i, i < 512 → wordAt m (nextTable ttbr) i = wordAt m' (nextTable ttbr) i)
    (h2 : ∀ i, i < 512 → (wordAt m (nextTable ttbr) i).getLsbD 0 = true → (wordAt m (nextTable ttbr) i).getLsbD 1 = true →
      ∀ j, j < 512 → wordAt m (nextTable (wordAt m (nextTable ttbr) i)) j = wordAt m' (nextTable (wordAt m (nextTable ttbr) i)) j)
    (h3 : ∀ i d2, i < 512 → (wordAt m (nextTable ttbr) i).getLsbD 0 = true → (wordAt m (nextTable ttbr) i).getLsbD 1 = true →
      (∃ j, j < 512 ∧ wordAt m (nextTable (wordAt m (nextTable ttbr) i)) j = d2) → d2.getLsbD 0 = true → d2.getLsbD 1 = true →
      ∀ k, k < 512 → wordAt m (nextTable d2) k = wordAt m' (nextTable d2) k) :
    walk m ttbr va = walk m' ttbr va := by
  have hlt : ∀ shift, (va.extractLsb' shift 9).toNat < 512 := fun shift => (va.extractLsb' shift 9).isLt
  unfold walk
  dsimp only
  rw [← h1 _ (hlt 30)]
  cases hv1 : (wordAt m (nextTable ttbr) (va.extractLsb' 30 9).toNat).getLsbD 0 with
  | false => rfl
  | true =>
    cases ht1 : (wordAt m (nextTable ttbr) (va.extractLsb' 30 9).toNat).getLsbD 1 with
    | false => rfl
    | true =>
      rw [← h2 _ (hlt 30) hv1 ht1 _ (hlt 21)]
      cases hv2 : (wordAt m (nextTable (wordAt m (nextTable ttbr) (va.extractLsb' 30 9).toNat)) (va.extractLsb' 21 9).toNat).getLsbD 0 with
      | false => rfl
      | true =>
        cases ht2 : (wordAt m (nextTable (wordAt m (nextTable ttbr) (va.extractLsb' 30 9).toNat)) (va.extractLsb' 21 9).toNat).getLsbD 1 with
        | false => rfl
        | true => rw [← h3 _ _ (hlt 30) hv1 ht1 ⟨_, hlt 21, rfl⟩ hv2 ht2 _ (hlt 12)]

/-- A leaf translates its whole page. -/
theorem walk_samePage {leaf : Leaf} {va' : BitVec 64} (h : walk m ttbr va = some leaf)
    (hpage : leaf.samePage va va' = true) : walk m ttbr va' = some leaf := by
  have hfield : ∀ shift, leaf.offsetBits ≤ shift → va.extractLsb' shift 9 = va'.extractLsb' shift 9 := by
    intro shift hle
    have hshift : va >>> leaf.offsetBits = va' >>> leaf.offsetBits := of_decide_eq_true hpage
    apply BitVec.eq_of_getLsbD_eq
    intro i hi
    have hbit := congrArg (fun x => x.getLsbD (shift - leaf.offsetBits + i)) hshift
    simp only [BitVec.getLsbD_ushiftRight] at hbit
    rw [show leaf.offsetBits + (shift - leaf.offsetBits + i) = shift + i by omega] at hbit
    simp only [BitVec.getLsbD_extractLsb', hi, decide_true, Bool.true_and, hbit]
  unfold walk at h ⊢
  dsimp only at h ⊢
  split at h
  · cases h
  · rename_i hv1
    split at h
    · rename_i ht1
      cases h
      rw [← hfield 30 (Nat.le_refl 30), if_neg hv1, if_pos ht1]
    · rename_i ht1
      split at h
      · cases h
      · rename_i hv2
        split at h
        · rename_i ht2
          cases h
          rw [← hfield 30 (show 21 ≤ 30 by decide), ← hfield 21 (Nat.le_refl 21), if_neg hv1, if_neg ht1, if_neg hv2, if_pos ht2]
        · rename_i ht2
          split at h
          · cases h
          · rename_i hv3
            cases h
            rw [← hfield 30 (show 12 ≤ 30 by decide), ← hfield 21 (show 12 ≤ 21 by decide), ← hfield 12 (Nat.le_refl 12), if_neg hv1, if_neg ht1,
              if_neg hv2, if_neg ht2, if_neg hv3]

/-- A walk leaves 12, 21 or 30 bits of the address alone. -/
theorem walk_offsetBits {leaf : Leaf} (h : walk m ttbr va = some leaf) : leaf.offsetBits ≤ 30 := by
  unfold walk at h
  dsimp only at h
  repeat' split at h
  all_goals cases h
  all_goals simp

theorem walkCached_samePage {leaf : Leaf} {va' : BitVec 64} (h : walkCached m ttbr va = some leaf)
    (hpage : leaf.samePage va va' = true) : walkCached m ttbr va' = some leaf := by
  unfold walkCached at h ⊢
  split at h
  · rename_i hva
    obtain ⟨l, hl, rfl⟩ := Option.map_eq_some_iff.1 h
    rw [cached_samePage] at hpage
    have hshift := congrArg BitVec.toNat (of_decide_eq_true hpage)
    have hbits := walk_offsetBits hl
    rw [BitVec.toNat_ushiftRight, BitVec.toNat_ushiftRight, Nat.shiftRight_eq_div_pow, Nat.shiftRight_eq_div_pow] at hshift
    have hva' : va'.toNat < 0x8000000000 := by
      have hpow : 0x8000000000 = 2 ^ l.offsetBits * 2 ^ (39 - l.offsetBits) := by
        rw [← Nat.pow_add, Nat.add_sub_cancel' (by omega)]
      rw [hpow, Nat.mul_comm, ← Nat.div_lt_iff_lt_mul (Nat.two_pow_pos _)] at hva ⊢
      omega
    rw [if_pos hva', walk_samePage hl hpage]
    rfl
  · cases h

end

end Translation
