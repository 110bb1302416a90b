import LettuceKernel.Lib.PackedWord
/-!
# Handles of a table with generations

A handle packs the generation of a slot over the slot number plus one, so that no handle is 0.
`decode limit` is the decoder of a table with `limit` slots: it accepts exactly the handles
`make` builds for them.
-/

namespace SlotHandle

/-- `(uint32_t)generation << 16 | (uint32_t)(slot + 1)`. -/
def make (slot : Nat) (generation : BitVec 16) : BitVec 32 :=
  PackedWord.pack generation (BitVec.ofNat 32 (slot + 1))

/-- Slot and generation; `none` is the C decoder's `false`. -/
def decode (limit : Nat) (handle : BitVec 32) : Option (Nat × BitVec 16) :=
  if handle = 0 ∨ PackedWord.low handle = 0 then none
  else
    let slot := (PackedWord.low handle - 1).toNat
    if slot < limit then some (slot, PackedWord.high handle) else none

/-- `generation == 0u ? 1u : generation`: no handle is issued with generation 0. -/
def issuedGeneration (g : BitVec 16) : BitVec 16 := if g = 0 then 1 else g

theorem issuedGeneration_of_ne {g : BitVec 16} (hg : g ≠ 0) : issuedGeneration g = g := by
  rw [issuedGeneration, if_neg hg]

theorem issuedGeneration_ne_zero (g : BitVec 16) : issuedGeneration g ≠ 0 := by
  unfold issuedGeneration
  split
  · decide
  · assumption

theorem make_toNat {slot : Nat} (hs : slot < 65535) (g : BitVec 16) :
    (make slot g).toNat = g.toNat * 65536 + (slot + 1) := by
  have hlo : (BitVec.ofNat 32 (slot + 1)).toNat = slot + 1 := by
    rw [BitVec.toNat_ofNat]
    omega
  rw [make, PackedWord.pack_toNat g (by omega), hlo]

theorem make_inj {s s' : Nat} {g g' : BitVec 16} (hs : s < 65535) (hs' : s' < 65535) (h : make s g = make s' g') :
    s = s' ∧ g = g' := by
  have hnat := congrArg BitVec.toNat h
  have hg := g.isLt
  have hg' := g'.isLt
  rw [make_toNat hs, make_toNat hs'] at hnat
  exact ⟨by omega, BitVec.eq_of_toNat_eq (by omega)⟩

theorem decode_eq_some {limit : Nat} (hl : limit ≤ 65535) {handle : BitVec 32} {slot : Nat} {g : BitVec 16} :
    decode limit handle = some (slot, g) ↔ slot < limit ∧ handle = make slot g := by
  have hlow := PackedWord.low_toNat handle
  have hhigh := PackedWord.high_toNat handle
  have hlt := handle.isLt
  unfold decode
  constructor
  · intro h
    split at h
    · cases h
    · rename_i hne
      simp only [not_or] at hne
      have hpos : (PackedWord.low handle).toNat ≠ 0 := fun h0 => hne.2 (BitVec.eq_of_toNat_eq (by simpa using h0))
      have hsub : (PackedWord.low handle - 1).toNat = (PackedWord.low handle).toNat - 1 := by
        rw [BitVec.toNat_sub_of_le (by simp [BitVec.le_def]; omega)]
        rfl
      dsimp only at h
      split at h
      · rename_i hslot
        simp only [Option.some.injEq, Prod.mk.injEq] at h
        obtain ⟨rfl, rfl⟩ := h
        refine ⟨hslot, BitVec.eq_of_toNat_eq ?_⟩
        rw [make_toNat (by omega), hsub]
        omega
      · cases h
  · rintro ⟨hs, rfl⟩
    have hmk := make_toNat (show slot < 65535 by omega) g
    have hne : make slot g ≠ 0 := by
      intro h0
      rw [h0, show (0 : BitVec 32).toNat = 0 from rfl] at hmk
      omega
    have henc : (PackedWord.low (make slot g)).toNat = slot + 1 := by omega
    have henc0 : PackedWord.low (make slot g) ≠ 0 := by
      intro h0
      rw [h0] at henc
      simp at henc
    have hsub : (PackedWord.low (make slot g) - 1).toNat = slot := by
      rw [BitVec.toNat_sub_of_le (by simp [BitVec.le_def]; omega), henc]
      simp
    have hgen : PackedWord.high (make slot g) = g := by
      apply BitVec.eq_of_toNat_eq
      omega
    simp only [if_neg (show ¬ (make slot g = 0 ∨ PackedWord.low (make slot g) = 0) by
      simp only [not_or]; exact ⟨hne, henc0⟩), hsub, if_pos hs, hgen]

end SlotHandle
