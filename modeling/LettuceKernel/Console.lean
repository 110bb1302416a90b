import Mathlib.Data.Nat.Digits.Lemmas
/-!
# Numbers on the console (`kernel/arch/arm64/cpu.c:48-75`, `:91`)

| here | there |
| --- | --- |
| `consolePuts`        | `lettuce_arch_console_puts` (cpu.c:91), up to the terminating zero |
| `hexLoop`, `consolePrintHex` | `lettuce_arch_console_print_hex` (:48) |
| `decLoop`, `consolePrintDec` | `lettuce_arch_console_print_dec` (:56) |

The functions are the lists of bytes they send to the UART. The decimal digits are collected in `buf[24]`, last digit first;
`none` is a write behind its end.
-/

namespace Lettuce

/-- A line feed goes out behind a carriage return. -/
def consolePuts (text : List (BitVec 8)) : List (BitVec 8) :=
  (text.takeWhile (· ≠ 0)).flatMap fun character => if character = 10 then [13, character] else [character]

/-- `digits[]`: "0123456789abcdef". -/
def hexDigits : List (BitVec 8) := [48, 49, 50, 51, 52, 53, 54, 55, 56, 57, 97, 98, 99, 100, 101, 102]

def hexDigit (n : Nat) : BitVec 8 := hexDigits.getD n 0

/-- The digits at the shifts `4 * (count - 1)`, ..., 4, 0. -/
def hexLoop (value : BitVec 64) : Nat → List (BitVec 8)
  | 0 => []
  | count + 1 => hexDigit (value >>> (4 * count) &&& 0xf).toNat :: hexLoop value count

def consolePrintHex (value : BitVec 64) : List (BitVec 8) := consolePuts [48, 120] ++ hexLoop value 16

/-- The first loop, with `room` cells of `buf` left. -/
def decLoop : (room : Nat) → (value : BitVec 64) → (buf : List (BitVec 8)) → Option (List (BitVec 8))
  | 0, value, buf => if value > 0 then none else some buf
  | room + 1, value, buf =>
    if value > 0 then decLoop room (value / 10) (buf ++ [BitVec.ofNat 8 (48 + (value % 10).toNat)]) else some buf

def consolePrintDec (value : BitVec 64) : Option (List (BitVec 8)) :=
  if value = 0 then some [48] else (decLoop 24 value []).map List.reverse

/-! ## Reading them back -/

def decValue (acc : Nat) (digit : BitVec 8) : Nat := acc * 10 + (digit.toNat - 48)

def readDec (text : List (BitVec 8)) : Nat := text.foldl decValue 0

def hexValue (acc : Nat) (digit : BitVec 8) : Nat := acc * 16 + (if digit.toNat < 58 then digit.toNat - 48 else digit.toNat - 87)

/-- The number behind `0x`. -/
def readHex (text : List (BitVec 8)) : Nat := (text.drop 2).foldl hexValue 0

theorem hexValue_hexDigit (acc : Nat) {n : Nat} (hn : n < 16) : hexValue acc (hexDigit n) = acc * 16 + n := by
  have htable : ∀ n < 16, (if (hexDigit n).toNat < 58 then (hexDigit n).toNat - 48 else (hexDigit n).toNat - 87) = n := by
    decide
  rw [hexValue, htable n hn]

theorem hexLoop_read (value : BitVec 64) (acc count : Nat) :
    (hexLoop value count).foldl hexValue acc = acc * 16 ^ count + value.toNat % 16 ^ count := by
  induction count generalizing acc with
  | zero => simp [hexLoop, Nat.mod_one]
  | succ count ih =>
    have hnibble : (value >>> (4 * count) &&& 0xf).toNat = value.toNat / 16 ^ count % 16 := by
      have hmask : (0xf : BitVec 64).toNat = 2 ^ 4 - 1 := rfl
      rw [BitVec.toNat_and, hmask, Nat.and_two_pow_sub_one_eq_mod, BitVec.toNat_ushiftRight, Nat.shiftRight_eq_div_pow, Nat.pow_mul]
    have hlt : value.toNat / 16 ^ count % 16 < 16 := Nat.mod_lt _ (by decide)
    rw [hexLoop, List.foldl_cons, hnibble, hexValue_hexDigit _ hlt, ih, Nat.mod_pow_succ, Nat.pow_succ]
    ring

theorem hexLoop_length (value : BitVec 64) (count : Nat) : (hexLoop value count).length = count := by
  induction count with
  | zero => rfl
  | succ count ih => rw [hexLoop, List.length_cons, ih]

theorem hexDigit_mem {n : Nat} (hn : n < 16) : hexDigit n ∈ hexDigits := by
  have htable : ∀ n < 16, hexDigit n ∈ hexDigits := by decide
  exact htable n hn

/-- A nibble is no index behind the table. -/
theorem hexLoop_mem (value : BitVec 64) (count : Nat) : ∀ d ∈ hexLoop value count, d ∈ hexDigits := by
  induction count with
  | zero => simp [hexLoop]
  | succ count ih =>
    have hnibble : (value >>> (4 * count) &&& 0xf).toNat < 16 := by
      have hmask : (0xf : BitVec 64).toNat = 2 ^ 4 - 1 := rfl
      rw [BitVec.toNat_and, hmask, Nat.and_two_pow_sub_one_eq_mod]
      exact Nat.mod_lt _ (by decide)
    intro d hd
    rcases List.mem_cons.1 hd with rfl | hd
    · exact hexDigit_mem hnibble
    · exact ih d hd

/-- The byte of a decimal digit. -/
def decDigit (n : Nat) : BitVec 8 := BitVec.ofNat 8 (48 + n)

theorem decDigit_toNat {n : Nat} (hn : n < 10) : (decDigit n).toNat = 48 + n := by
  rw [decDigit, BitVec.toNat_ofNat]
  omega

/-- The loop appends the digits, as long as they fit. -/
theorem decLoop_eq (room : Nat) (value : BitVec 64) (buf : List (BitVec 8)) (hfits : (Nat.digits 10 value.toNat).length ≤ room) :
    decLoop room value buf = some (buf ++ (Nat.digits 10 value.toNat).map decDigit) := by
  induction room generalizing value buf with
  | zero =>
    have hzero : value.toNat = 0 := Nat.digits_eq_nil_iff_eq_zero.1 (List.length_eq_zero_iff.1 (Nat.le_zero.1 hfits))
    have hnot : ¬ value > 0 := fun h => by rw [gt_iff_lt, BitVec.lt_def, hzero] at h; exact absurd h (Nat.lt_irrefl 0)
    rw [decLoop, if_neg hnot, hzero, Nat.digits_zero, List.map_nil, List.append_nil]
  | succ room ih =>
    rw [decLoop]
    split
    · next hpos =>
      have hpos' : 0 < value.toNat := by rwa [gt_iff_lt, BitVec.lt_def] at hpos
      have hdiv : (value / 10).toNat = value.toNat / 10 := BitVec.toNat_udiv
      have hmod : (value % 10).toNat = value.toNat % 10 := BitVec.toNat_umod
      have hdigits := Nat.digits_def' (by decide : 1 < 10) hpos'
      rw [hdigits, List.length_cons] at hfits
      rw [ih (value / 10) _ (by rw [hdiv]; omega), hdiv, hmod, hdigits, List.map_cons, List.append_assoc]
      rfl
    · next hnot =>
      have hzero : value.toNat = 0 := by
        rw [gt_iff_lt, BitVec.lt_def, Nat.not_lt] at hnot
        exact Nat.le_zero.1 hnot
      rw [hzero, Nat.digits_zero, List.map_nil, List.append_nil]

/-- Last digit first, the digits are read back to the number they make up. -/
theorem readDec_reverse {digits : List Nat} (hdigits : ∀ d ∈ digits, d < 10) :
    readDec (digits.map decDigit).reverse = Nat.ofDigits 10 digits := by
  induction digits with
  | nil => rfl
  | cons d digits ih =>
    have hd := decDigit_toNat (hdigits d (List.mem_cons_self ..))
    have ih := ih fun d' hd' => hdigits d' (List.mem_cons_of_mem _ hd')
    rw [readDec, List.map_cons, List.reverse_cons, List.foldl_append, ← readDec, ih, Nat.ofDigits_cons, List.foldl_cons,
      List.foldl_nil, decValue, hd]
    omega

/-- `buf[24]` is large enough for every 64-bit value. -/
theorem digits_length (value : BitVec 64) : (Nat.digits 10 value.toNat).length ≤ 20 := by
  have hlt : value.toNat < 2 ^ 64 := value.isLt
  exact (Nat.digits_length_le_iff (by decide) _).2 (Nat.lt_of_lt_of_le hlt (by decide))

theorem consolePrintDec_eq {value : BitVec 64} (hvalue : value ≠ 0) :
    consolePrintDec value = some ((Nat.digits 10 value.toNat).map decDigit).reverse := by
  have hfits := digits_length value
  rw [consolePrintDec, if_neg hvalue, decLoop_eq 24 value [] (by omega)]
  rfl

/-- The first digit is no zero. -/
theorem head_digit {n : Nat} (hn : n ≠ 0) : ((Nat.digits 10 n).map decDigit).reverse.head? ≠ some 48 := by
  have hne : Nat.digits 10 n ≠ [] := Nat.digits_ne_nil_iff_ne_zero.2 hn
  have hlast := Nat.getLast_digit_ne_zero 10 hn
  have hlt : (Nat.digits 10 n).getLast hne < 10 := Nat.digits_lt_base (by decide) (List.getLast_mem hne)
  rw [List.head?_reverse, List.getLast?_map, List.getLast?_eq_getLast_of_ne_nil hne, Option.map_some]
  intro heq
  have hbyte := congrArg BitVec.toNat (Option.some.inj heq)
  rw [decDigit_toNat hlt] at hbyte
  have h48 : (48 : BitVec 8).toNat = 48 := rfl
  omega

/-- What is printed is the value's numeral. -/
theorem consolePrintDec_spec (value : BitVec 64) :
    ∃ text, consolePrintDec value = some text ∧ readDec text = value.toNat ∧ text ≠ [] ∧ text.length ≤ 20 ∧
      (∀ d ∈ text, 48 ≤ d.toNat ∧ d.toNat < 58) ∧ (value ≠ 0 → text.head? ≠ some 48) := by
  by_cases hvalue : value = 0
  · subst hvalue
    exact ⟨[48], rfl, rfl, by decide, by decide, by decide, fun h => absurd rfl h⟩
  · have hnat : value.toNat ≠ 0 := fun h => hvalue (BitVec.eq_of_toNat_eq h)
    have hdigits : ∀ d ∈ Nat.digits 10 value.toNat, d < 10 := fun d hd => Nat.digits_lt_base (by decide) hd
    refine ⟨_, consolePrintDec_eq hvalue, ?_, ?_, ?_, fun d hd => ?_, fun _ => head_digit hnat⟩
    · rw [readDec_reverse hdigits, Nat.ofDigits_digits]
    · rw [ne_eq, List.reverse_eq_nil_iff, List.map_eq_nil_iff]
      exact Nat.digits_ne_nil_iff_ne_zero.2 hnat
    · rw [List.length_reverse, List.length_map]
      exact digits_length value
    · obtain ⟨n, hn, rfl⟩ := List.mem_map.1 (List.mem_reverse.1 hd)
      have hlt := hdigits n hn
      rw [decDigit_toNat hlt]
      omega

/-- The console shows numbers so that they can be read back: for every value the decimal buffer is never overrun, what is
printed is the value's numeral of at least one and at most 20 digits without a leading zero, and the hexadecimal form is `0x`
and sixteen digits of the table. -/
theorem console_numbers (value : BitVec 64) :
    (∃ text, consolePrintDec value = some text ∧ readDec text = value.toNat ∧ text ≠ [] ∧ text.length ≤ 20 ∧
      (∀ d ∈ text, 48 ≤ d.toNat ∧ d.toNat < 58) ∧ (value ≠ 0 → text.head? ≠ some 48)) ∧
    (∃ digits, consolePrintHex value = [48, 120] ++ digits ∧ digits.length = 16 ∧ ∀ d ∈ digits, d ∈ hexDigits) ∧
    (consolePrintHex value).length = 18 ∧ readHex (consolePrintHex value) = value.toNat := by
  refine ⟨consolePrintDec_spec value, ⟨_, rfl, hexLoop_length value 16, hexLoop_mem value 16⟩, ?_, ?_⟩
  · rw [consolePrintHex, List.length_append, hexLoop_length]
    rfl
  · have hdrop : (consolePrintHex value).drop 2 = hexLoop value 16 := rfl
    rw [readHex, hdrop, hexLoop_read, Nat.zero_mul, Nat.zero_add]
    exact Nat.mod_eq_of_lt value.isLt

end Lettuce
