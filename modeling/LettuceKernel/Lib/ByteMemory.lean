import Mathlib.Logic.Function.Basic
import Mathlib.Algebra.Group.Nat.Defs
/-!
# Byte-addressed memory

A memory gives every `w`-bit address a byte, and address arithmetic wraps around. `load m a n` is
the little-endian number in the `n` bytes from `a` on, `store m a n v` writes one there. The
bytes concerned are those that `Covers a n` names, by their distance from `a`, so that a
range that wraps around is a range like any other.
-/

namespace ByteMemory

abbrev Memory (w : Nat) := BitVec w → BitVec 8

variable {w : Nat}

def load (m : Memory w) (a : BitVec w) : Nat → Nat
  | 0 => 0
  | n + 1 => (m a).toNat + 256 * load m (a + 1#w) n

def store (m : Memory w) (a : BitVec w) : Nat → Nat → Memory w
  | 0, _ => m
  | n + 1, v => store (Function.update m a (BitVec.ofNat 8 v)) (a + 1#w) n (v / 256)

/-- The `n` bytes from `a` on, in order. -/
def bytes (m : Memory w) (a : BitVec w) (n : Nat) : List (BitVec 8) := (List.range n).map fun i => m (a + BitVec.ofNat w i)

/-- `b` is one of the `n` addresses from `a` on. -/
def Covers (a : BitVec w) (n : Nat) (b : BitVec w) : Prop := (b - a).toNat < n

instance (a : BitVec w) (n : Nat) (b : BitVec w) : Decidable (Covers a n b) := inferInstanceAs (Decidable (_ < _))

/-- The first address, then the rest. -/
theorem covers_succ {a b : BitVec w} {n : Nat} : Covers a (n + 1) b ↔ b = a ∨ Covers (a + 1#w) n b := by
  unfold Covers
  by_cases hab : b = a
  · simp [hab]
  · have hne : (b - a).toNat ≠ 0 := by
      intro h
      have hzero : b - a = 0#w := BitVec.eq_of_toNat_eq (by simpa using h)
      exact hab (by rwa [BitVec.sub_eq_iff_eq_add, BitVec.zero_add] at hzero)
    have hone : (1#w).toNat = 1 := by
      have := (b - a).isLt
      rw [BitVec.toNat_ofNat]
      exact Nat.mod_eq_of_lt (by omega)
    have hsub : (b - (a + 1#w)).toNat = (b - a).toNat - 1 := by
      rw [← BitVec.sub_sub, BitVec.toNat_sub_of_le, hone]
      exact BitVec.le_def.2 (by omega)
    simp only [hab, false_or, hsub]
    omega

/-- Fewer than all addresses do not come round to the one before. -/
theorem not_covers_of_lt {a : BitVec w} {n : Nat} (hn : n < 2 ^ w) : ¬ Covers (a + 1#w) n a := by
  have hneg : a - (a + 1#w) = BitVec.allOnes w := by
    rw [← BitVec.sub_sub, BitVec.sub_self, BitVec.zero_sub, BitVec.neg_one_eq_allOnes]
  unfold Covers
  rw [hneg, BitVec.toNat_allOnes]
  omega

/-- Two ranges one after the other share no address. -/
theorem not_covers_of_covers_add {a b k : BitVec w} {n : Nat} (hn : k.toNat + n ≤ 2 ^ w) (h : Covers (a + k) n b) :
    ¬ Covers a k.toNat b := by
  unfold Covers at h ⊢
  intro hlt
  have hk := k.isLt
  rw [← BitVec.sub_sub, BitVec.toNat_sub, Nat.mod_eq_of_lt (by omega)] at h
  omega

/-- A range is its first part and the rest. -/
theorem covers_add_iff {a b k : BitVec w} {n : Nat} : Covers a (k.toNat + n) b ↔ Covers a k.toNat b ∨ Covers (a + k) n b := by
  unfold Covers
  have hk := k.isLt
  have hb := (b - a).isLt
  rw [← BitVec.sub_sub, BitVec.toNat_sub (b - a) k]
  by_cases hle : k.toNat ≤ (b - a).toNat
  · have hwrap : (2 ^ w - k.toNat + (b - a).toNat) % 2 ^ w = (b - a).toNat - k.toNat := by
      rw [show 2 ^ w - k.toNat + (b - a).toNat = (b - a).toNat - k.toNat + 2 ^ w by omega, Nat.add_mod_right,
        Nat.mod_eq_of_lt (by omega)]
    rw [hwrap]
    omega
  · rw [Nat.mod_eq_of_lt (by omega)]
    omega

/-- A longer range covers more. -/
theorem Covers.mono {a b : BitVec w} {n n' : Nat} (h : Covers a n b) (hn : n ≤ n') : Covers a n' b := Nat.lt_of_lt_of_le h hn

theorem store_of_not_covers {m : Memory w} {a b : BitVec w} {n v : Nat} (h : ¬ Covers a n b) : store m a n v b = m b := by
  induction n generalizing m a v with
  | zero => rfl
  | succ n ih =>
    rw [covers_succ, not_or] at h
    rw [store, ih h.2, Function.update_of_ne h.1]

/-- What is stored does not depend on what was there. -/
theorem store_of_covers {m m' : Memory w} {a b : BitVec w} {n v : Nat} (h : Covers a n b) : store m a n v b = store m' a n v b := by
  induction n generalizing m m' a v with
  | zero => exact absurd h (Nat.not_lt_zero _)
  | succ n ih =>
    by_cases hrest : Covers (a + 1#w) n b
    · exact ih hrest
    · obtain rfl := (covers_succ.1 h).resolve_right hrest
      rw [store, store, store_of_not_covers hrest, store_of_not_covers hrest, Function.update_self, Function.update_self]

/-- Zero is stored as zero bytes. -/
theorem store_zero {m : Memory w} {a b : BitVec w} {n : Nat} : store m a n 0 b = if Covers a n b then 0 else m b := by
  induction n generalizing m a with
  | zero => exact (if_neg (Nat.not_lt_zero _)).symm
  | succ n ih =>
    rw [store, Nat.zero_div, ih]
    by_cases hrest : Covers (a + 1#w) n b
    · rw [if_pos hrest, if_pos (covers_succ.2 (Or.inr hrest))]
    · rw [if_neg hrest]
      by_cases hfirst : b = a
      · rw [if_pos (covers_succ.2 (Or.inl hfirst)), hfirst, Function.update_self]
        rfl
      · rw [if_neg fun h => (covers_succ.1 h).elim hfirst hrest, Function.update_of_ne hfirst]

theorem load_congr {m m' : Memory w} {a : BitVec w} {n : Nat} (h : ∀ b, Covers a n b → m b = m' b) : load m a n = load m' a n := by
  induction n generalizing a with
  | zero => rfl
  | succ n ih =>
    have hfirst : m a = m' a := h a (covers_succ.2 (Or.inl rfl))
    have hrest : load m (a + 1#w) n = load m' (a + 1#w) n := ih fun b hb => h b (covers_succ.2 (Or.inr hb))
    rw [load, load, hfirst, hrest]

/-- What was stored is read back. -/
theorem load_store {m : Memory w} {a : BitVec w} {n v : Nat} (hn : n ≤ 2 ^ w) : load (store m a n v) a n = v % 256 ^ n := by
  induction n generalizing m a v with
  | zero => rw [load, Nat.pow_zero, Nat.mod_one]
  | succ n ih =>
    have hfirst : (store (Function.update m a (BitVec.ofNat 8 v)) (a + 1#w) n (v / 256) a).toNat = v % 256 := by
      rw [store_of_not_covers (not_covers_of_lt (by omega)), Function.update_self, BitVec.toNat_ofNat]
    rw [load, store, hfirst, ih (by omega), Nat.pow_succ, Nat.mul_comm (256 ^ n), Nat.mod_mul]

/-- A store elsewhere is not seen. -/
theorem load_store_of_disjoint {m : Memory w} {a a' : BitVec w} {n n' v : Nat} (h : ∀ b, Covers a' n' b → ¬ Covers a n b) :
    load (store m a n v) a' n' = load m a' n' :=
  load_congr fun b hb => store_of_not_covers (h b hb)

end ByteMemory
