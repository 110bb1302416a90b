import Mathlib.Logic.Basic
/-!
# Two 16-bit halves in one 32-bit word

`hi << 16 | lo` with `lo` below `2^16`, the mask `& 0xFFFF` and the shift `>> 16`, read as
arithmetic on `toNat`, so that codecs built from them reduce to `omega`.
-/

namespace PackedWord

/-- `hi << 16 | lo`: the low part is a 32-bit value, as it is in code that computes it first. -/
def pack (hi : BitVec 16) (lo : BitVec 32) : BitVec 32 := (hi.setWidth 32 <<< 16) ||| lo

/-- `w & 0xFFFF`, still 32 bits wide. -/
def low (w : BitVec 32) : BitVec 32 := w &&& 0xFFFF#32

/-- `(uint16_t)(w >> 16)`. -/
def high (w : BitVec 32) : BitVec 16 := (w >>> 16).setWidth 16

theorem pack_toNat (hi : BitVec 16) {lo : BitVec 32} (hlo : lo.toNat < 65536) :
    (pack hi lo).toNat = hi.toNat * 65536 + lo.toNat := by
  have hhi := hi.isLt
  have hsh : (hi.setWidth 32 <<< 16).toNat = hi.toNat <<< 16 := by
    simp only [BitVec.toNat_shiftLeft, BitVec.toNat_setWidth, Nat.shiftLeft_eq]
    omega
  rw [pack, BitVec.toNat_or, hsh, ← Nat.shiftLeft_add_eq_or_of_lt (by omega), Nat.shiftLeft_eq]

theorem low_toNat (w : BitVec 32) : (low w).toNat = w.toNat % 65536 := by
  rw [low, BitVec.toNat_and]
  exact Nat.and_two_pow_sub_one_eq_mod w.toNat 16

theorem high_toNat (w : BitVec 32) : (high w).toNat = w.toNat / 65536 := by
  have hw := w.isLt
  rw [high, BitVec.toNat_setWidth, BitVec.toNat_ushiftRight, Nat.shiftRight_eq_div_pow]
  omega

end PackedWord
