import Mathlib.Data.Rat.Floor
import Mathlib.Tactic.Linarith
import Mathlib.Tactic.Positivity
import Mathlib.Tactic.FieldSimp

/-!
# Rounding and number formatting

Floats are read as exact rational numbers, without infinities and nan: sums, products and
quotients are not rounded, and neither is a literal. `round(q, n)` and the format codes
`.nf`, `,.nf` and `.n%` all round half to even; here they share `roundHalfEven`, which decides
a tie by the exact number where Python decides it by the nearest binary float. What the proofs
use is that rounding is monotone and fixes the integers.

The range of the floats is kept apart from their precision: `Arithmetic.isInf` tells which
numbers are too large for a float and become an infinity.
-/

namespace Python

/-- How far the floats reach. -/
inductive Arithmetic where
  /-- Every number is a float. -/
  | exact
  /-- The range of IEEE 754 double precision. -/
  | double
  deriving DecidableEq

/-- The number becomes an infinity: halfway between the largest float and the next power of
two, and beyond. -/
def Arithmetic.isInf : Arithmetic → ℚ → Bool
  | exact, _ => false
  | double, q => decide (2 ^ 1024 - 2 ^ 970 ≤ |q|)

theorem Arithmetic.isInf_eq_false_of_lt {q : ℚ} (h : |q| < 2 ^ 64) (arithmetic : Arithmetic) :
    arithmetic.isInf q = false := by
  cases arithmetic with
  | exact => rfl
  | double =>
      have hsmall : (2 : ℚ) ^ 64 ≤ 2 ^ 970 := pow_le_pow_right₀ (by norm_num) (by omega)
      have hlarge : (2 : ℚ) ^ 1024 = 2 ^ 54 * 2 ^ 970 := by rw [← pow_add]
      have hbound : (2 : ℚ) ^ 64 ≤ 2 ^ 1024 - 2 ^ 970 := by
        rw [hlarge]
        generalize (2 : ℚ) ^ 970 = m at hsmall
        norm_num at hsmall ⊢
        linarith
      exact decide_eq_false (not_le.2 (h.trans_le hbound))

/-- The integer nearest to `q`, the even one when two are equally near. -/
def roundHalfEven (q : ℚ) : ℤ :=
  if q - ⌊q⌋ < 1 / 2 then ⌊q⌋
  else if 1 / 2 < q - ⌊q⌋ then ⌊q⌋ + 1
  else if ⌊q⌋ % 2 = 0 then ⌊q⌋ else ⌊q⌋ + 1

theorem floor_le_roundHalfEven (q : ℚ) : ⌊q⌋ ≤ roundHalfEven q := by
  unfold roundHalfEven
  split_ifs <;> omega

theorem roundHalfEven_le_floor_add_one (q : ℚ) : roundHalfEven q ≤ ⌊q⌋ + 1 := by
  unfold roundHalfEven
  split_ifs <;> omega

theorem roundHalfEven_mono {q r : ℚ} (h : q ≤ r) : roundHalfEven q ≤ roundHalfEven r := by
  rcases (Int.floor_mono h).lt_or_eq with hlt | heq
  · calc roundHalfEven q ≤ ⌊q⌋ + 1 := roundHalfEven_le_floor_add_one q
      _ ≤ ⌊r⌋ := hlt
      _ ≤ roundHalfEven r := floor_le_roundHalfEven r
  · have hfrac : q - ⌊q⌋ ≤ r - ⌊r⌋ := by rw [heq]; linarith
    unfold roundHalfEven
    rw [heq] at hfrac ⊢
    split_ifs <;> first | omega | (exfalso; linarith)

@[simp] theorem roundHalfEven_intCast (z : ℤ) : roundHalfEven z = z := by
  simp [roundHalfEven]

theorem roundHalfEven_add_half {z : ℤ} (hz : z % 2 = 0) : roundHalfEven (z + 1 / 2) = z := by
  have hfloor : ⌊(z : ℚ) + 1 / 2⌋ = z := by
    rw [Int.floor_intCast_add]
    norm_num
  have hfrac : (z : ℚ) + 1 / 2 - z = 1 / 2 := by ring
  rw [roundHalfEven, hfloor, hfrac, if_neg (lt_irrefl _), if_neg (lt_irrefl _), if_pos hz]

/-- One half more than an even integer is rounded to it, and anything larger is not. -/
theorem roundHalfEven_le_iff {z : ℤ} (hz : z % 2 = 0) {q : ℚ} :
    roundHalfEven q ≤ z ↔ q ≤ z + 1 / 2 := by
  constructor
  · intro hround
    by_contra hlarge
    rw [not_le] at hlarge
    have hfloor : ⌊q⌋ = z := by
      apply le_antisymm ((floor_le_roundHalfEven q).trans hround)
      exact Int.le_floor.2 (by linarith)
    have hfrac : 1 / 2 < q - z := by linarith
    rw [roundHalfEven, hfloor, if_neg (not_lt.2 hfrac.le), if_pos hfrac] at hround
    omega
  · intro hsmall
    exact (roundHalfEven_mono hsmall).trans (roundHalfEven_add_half hz).le

/-- `round(q, n)`. -/
def roundTo (q : ℚ) (n : ℕ) : ℚ := roundHalfEven (q * 10 ^ n) / 10 ^ n

theorem roundTo_mono {q r : ℚ} (n : ℕ) (h : q ≤ r) : roundTo q n ≤ roundTo r n := by
  have hpow : (0 : ℚ) < 10 ^ n := by positivity
  have hscaled : q * 10 ^ n ≤ r * 10 ^ n := mul_le_mul_of_nonneg_right h hpow.le
  unfold roundTo
  exact div_le_div_of_nonneg_right (by exact_mod_cast roundHalfEven_mono hscaled) hpow.le

theorem roundTo_le_iff {z : ℤ} (hz : z % 2 = 0) {q : ℚ} (n : ℕ) :
    roundTo q n ≤ z / 10 ^ n ↔ q * 10 ^ n ≤ z + 1 / 2 := by
  have hpow : (0 : ℚ) < 10 ^ n := by positivity
  rw [roundTo, div_le_div_iff_of_pos_right hpow, Int.cast_le, roundHalfEven_le_iff hz]

@[simp] theorem roundTo_zero (n : ℕ) : roundTo 0 n = 0 := by
  have h : roundHalfEven 0 = 0 := by exact_mod_cast roundHalfEven_intCast 0
  simp [roundTo, h]

theorem roundTo_nonneg {q : ℚ} (n : ℕ) (h : 0 ≤ q) : 0 ≤ roundTo q n := by
  simpa using roundTo_mono n h

/-! ## Format codes -/

/-- The decimal digits of `k`, padded with zeros to at least `n` of them. -/
def padDigits (n k : ℕ) : List Char :=
  let ds := (Nat.repr k).toList
  List.replicate (n - ds.length) '0' ++ ds

/-- Groups of three digits, counted from the right, with commas between them; the
digits are given from right to left. -/
def groupThousands : List Char → List Char
  | a :: b :: c :: d :: s => a :: b :: c :: ',' :: groupThousands (d :: s)
  | s => s

/-- `f"{q:.nf}"`, and `f"{q:,.nf}"` when `commas` is set. -/
def formatFixed (q : ℚ) (n : ℕ) (commas : Bool) : String :=
  let k := (roundHalfEven (|q| * 10 ^ n)).toNat
  let whole := (Nat.repr (k / 10 ^ n)).toList
  let grouped := if commas then (groupThousands whole.reverse).reverse else whole
  let frac := if n = 0 then [] else '.' :: padDigits n (k % 10 ^ n)
  (if q < 0 then "-" else "") ++ String.ofList (grouped ++ frac)

theorem length_padDigits {n k : ℕ} (hn : 0 < n) (h : k < 10 ^ n) : (padDigits n k).length = n := by
  have hle : (Nat.toDigits 10 k).length ≤ n := (Nat.length_toDigits_le_iff (by omega) hn).2 h
  simp only [padDigits, Nat.toList_repr, List.length_append, List.length_replicate]
  omega

theorem isDigit_of_mem_padDigits {n k : ℕ} {c : Char} (hc : c ∈ padDigits n k) :
    c.isDigit = true := by
  rw [padDigits, List.mem_append, Nat.toList_repr] at hc
  rcases hc with hc | hc
  · rw [List.eq_of_mem_replicate hc]
    rfl
  · exact Nat.isDigit_of_mem_toDigits (by omega) le_rfl hc

theorem ofDigitChars_padDigits (n k : ℕ) : Nat.ofDigitChars 10 (padDigits n k) 0 = k := by
  rw [padDigits, Nat.toList_repr, Nat.ofDigitChars_append, Nat.ofDigitChars_replicate_zero,
    Nat.mul_zero, Nat.ofDigitChars_ten_toDigits]

/-- The digits of `k` units of the `n`-th decimal place. -/
def fixedDigits (n k : ℕ) : List Char :=
  Nat.toDigits 10 (k / 10 ^ n) ++ '.' :: padDigits n (k % 10 ^ n)

/-- A sign if it is negative, and the digits of its absolute value. -/
theorem toList_formatFixed_eq (q : ℚ) {n : ℕ} (hn : n ≠ 0) :
    (formatFixed q n false).toList =
      (if q < 0 then ['-'] else []) ++ fixedDigits n (roundHalfEven (|q| * 10 ^ n)).toNat := by
  have hsign : (if q < 0 then "-" else "").toList = if q < 0 then ['-'] else [] := by
    split_ifs <;> rfl
  simp only [formatFixed, fixedDigits, if_neg hn, hsign, String.toList_append, String.toList_ofList,
    Nat.toList_repr, Bool.false_eq_true, if_false]

/-- A number with `n` decimals is formatted without rounding. -/
theorem toList_formatFixed (k : ℕ) {n : ℕ} (hn : n ≠ 0) :
    (formatFixed (k / 10 ^ n) n false).toList =
      Nat.toDigits 10 (k / 10 ^ n) ++ '.' :: padDigits n (k % 10 ^ n) := by
  have hpow : (10 : ℚ) ^ n ≠ 0 := by positivity
  have hnonneg : (0 : ℚ) ≤ k / 10 ^ n := by positivity
  have hround : (roundHalfEven (|(k : ℚ) / 10 ^ n| * 10 ^ n)).toNat = k := by
    rw [abs_of_nonneg hnonneg, div_mul_cancel₀ _ hpow, ← Int.cast_natCast, roundHalfEven_intCast,
      Int.toNat_natCast]
  rw [toList_formatFixed_eq _ hn, hround, if_neg hnonneg.not_gt, List.nil_append, fixedDigits]

/-- `f"{q:.n%}"`. -/
def formatPercent (q : ℚ) (n : ℕ) : String := formatFixed (q * 100) n false ++ "%"

example : formatFixed 1234567.125 2 true = "1,234,567.12" := by decide +kernel

example : formatPercent 0.4 1 = "40.0%" := by decide +kernel

end Python
