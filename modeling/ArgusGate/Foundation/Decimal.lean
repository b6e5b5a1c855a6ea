import Mathlib.Algebra.Order.Floor.Ring
import Mathlib.Algebra.Order.Field.Basic
import Mathlib.Data.Rat.Floor
import Mathlib.Tactic.Linarith

/-!
# Decimal texts

`fixed` writes a number with a fixed number of decimals, rounded to the nearest and halves to even, and
`read` takes such a text for a number again. What is read differs from what was to be written by half a
unit of the last decimal at most.
-/

namespace Decimal

/-- The nearest integer, of two the even one. -/
def roundHalfEven (x : ℚ) : ℤ :=
  let n := ⌊x⌋
  if x - n < 1 / 2 then n
  else if 1 / 2 < x - n then n + 1
  else if n % 2 = 0 then n else n + 1

theorem abs_roundHalfEven_sub_le (x : ℚ) : |(roundHalfEven x : ℚ) - x| ≤ 1 / 2 := by
  have hlo : (⌊x⌋ : ℚ) ≤ x := Int.floor_le x
  have hhi : x < ⌊x⌋ + 1 := Int.lt_floor_add_one x
  rw [abs_le]
  simp only [roundHalfEven]
  split_ifs <;> push_cast <;> constructor <;> linarith

theorem roundHalfEven_nonneg {x : ℚ} (h : 0 ≤ x) : 0 ≤ roundHalfEven x := by
  have hfloor : 0 ≤ ⌊x⌋ := Int.floor_nonneg.mpr h
  simp only [roundHalfEven]
  split_ifs <;> omega

/-- The digits of `n` units of the last of `d` decimals, with the point before these. -/
def digits (d n : ℕ) : List Char :=
  let decimals := Nat.toDigits 10 (n % 10 ^ d)
  Nat.toDigits 10 (n / 10 ^ d) ++ '.' :: (List.replicate (d - decimals.length) '0' ++ decimals)

/-- A number with `d` decimals, as a format `.df` or, with a sign in any case, `+.df` writes it. -/
def fixed (plus : Bool) (d : ℕ) (x : ℚ) : String :=
  let sign := if x < 0 then ['-'] else if plus then ['+'] else []
  String.ofList (sign ++ digits d (roundHalfEven (|x| * 10 ^ d)).toNat)

/-- The number in a text with `d` decimals. -/
def read (d : ℕ) (text : String) : ℚ :=
  let magnitude : ℚ := Nat.ofDigitChars 10 (text.toList.filter Char.isDigit) 0 / 10 ^ d
  if text.toList.head? = some '-' then -magnitude else magnitude

theorem filter_toDigits (n : ℕ) : (Nat.toDigits 10 n).filter Char.isDigit = Nat.toDigits 10 n :=
  List.filter_eq_self.mpr fun _ => Nat.isDigit_of_mem_toDigits (by decide) (by decide)

theorem ofDigitChars_digits {d : ℕ} (hd : 0 < d) (n : ℕ) :
    Nat.ofDigitChars 10 ((digits d n).filter Char.isDigit) 0 = n := by
  have hlt : n % 10 ^ d < 10 ^ d := Nat.mod_lt n (by positivity)
  have hlen : (Nat.toDigits 10 (n % 10 ^ d)).length ≤ d :=
    (Nat.length_toDigits_le_iff (by decide) hd).mpr hlt
  have hzeros : (List.replicate (d - (Nat.toDigits 10 (n % 10 ^ d)).length) '0').filter Char.isDigit =
      List.replicate (d - (Nat.toDigits 10 (n % 10 ^ d)).length) '0' := by
    simp
  rw [digits, List.filter_append, List.filter_cons_of_neg (by decide), List.filter_append, hzeros,
    filter_toDigits, filter_toDigits, Nat.ofDigitChars_append, Nat.ofDigitChars_append,
    Nat.ofDigitChars_ten_toDigits, Nat.ofDigitChars_replicate_zero,
    Nat.ofDigitChars_eq_ofDigitChars_zero, Nat.ofDigitChars_ten_toDigits, ← mul_assoc, ← pow_add,
    Nat.add_sub_cancel' hlen]
  exact Nat.div_add_mod n (10 ^ d)

theorem head_digits (d n : ℕ) : ∃ c, (digits d n).head? = some c ∧ c.isDigit = true := by
  obtain ⟨c, cs, hcs⟩ := List.exists_cons_of_ne_nil
    (Nat.toDigits_ne_nil (n := n / 10 ^ d) (b := 10))
  refine ⟨c, by simp [digits, hcs], ?_⟩
  apply Nat.isDigit_of_mem_toDigits (b := 10) (n := n / 10 ^ d) (by decide) (by decide)
  simp [hcs]

/-- Reading gives back what was written. -/
theorem read_fixed (plus : Bool) {d : ℕ} (hd : 0 < d) (x : ℚ) : read d (fixed plus d x) =
    (if x < 0 then -1 else 1) * ((roundHalfEven (|x| * 10 ^ d) : ℚ) / 10 ^ d) := by
  have hround : ((roundHalfEven (|x| * 10 ^ d)).toNat : ℚ) = roundHalfEven (|x| * 10 ^ d) := by
    have hnonneg : 0 ≤ roundHalfEven (|x| * 10 ^ d) := roundHalfEven_nonneg (by positivity)
    exact_mod_cast Int.toNat_of_nonneg hnonneg
  obtain ⟨c, hhead, hdigit⟩ := head_digits d (roundHalfEven (|x| * 10 ^ d)).toNat
  have hminus : c ≠ '-' := fun h => by simp [h] at hdigit
  by_cases hx : x < 0
  · simp [read, fixed, hx, ofDigitChars_digits hd, hround]
  · cases plus <;> simp [read, fixed, hx, ofDigitChars_digits hd, hround, hhead, hminus]

/-- A number is written to within half a unit of the last decimal. -/
theorem abs_read_fixed_sub_le (plus : Bool) {d : ℕ} (hd : 0 < d) (x : ℚ) :
    |read d (fixed plus d x) - x| ≤ 1 / (2 * 10 ^ d) := by
  have hpos : (0 : ℚ) < 10 ^ d := by positivity
  have hround := abs_roundHalfEven_sub_le (|x| * 10 ^ d)
  rw [read_fixed plus hd]
  generalize (roundHalfEven (|x| * 10 ^ d) : ℚ) = n at hround ⊢
  -- writing works on the magnitude, and the sign is that of the number
  have hmagnitude : |n / 10 ^ d - abs x| ≤ 1 / (2 * 10 ^ d) := by
    calc |n / 10 ^ d - abs x| = |n - |x| * 10 ^ d| / 10 ^ d := by
          rw [← abs_of_pos hpos, ← abs_div, abs_of_pos hpos, sub_div, mul_div_cancel_right₀ _ hpos.ne']
      _ ≤ 1 / 2 / 10 ^ d := div_le_div_of_nonneg_right hround hpos.le
      _ = 1 / (2 * 10 ^ d) := by rw [div_div]
  by_cases hx : x < 0
  · rw [if_pos hx, neg_one_mul, abs_sub_comm, sub_neg_eq_add, add_comm]
    rwa [abs_of_neg hx, sub_neg_eq_add] at hmagnitude
  · rw [if_neg hx, one_mul]
    rwa [abs_of_nonneg (not_lt.mp hx)] at hmagnitude

example : fixed false 2 (-1 / 200) = "-0.00" := by decide +kernel

end Decimal
