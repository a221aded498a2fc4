import Mathlib

/-!
# 32-bit arithmetic

`unsigned int`, `unsigned long`, `size_t` and pointers are 32 bits wide on i686.  They are modelled
by natural numbers with the wrap-around written out: `wrap32` after an addition or a product,
`sub32` for a subtraction.  `toLong` and `ofLong` are the conversions to and from the signed types
of that width.
-/

namespace Akaris

/-- Reduction to 32 bits. -/
def wrap32 (n : ℕ) : ℕ := n % 2 ^ 32

/-- Subtraction of 32-bit numbers. -/
def sub32 (a b : ℕ) : ℕ := wrap32 (a + 2 ^ 32 - b)

/-- Conversion to `long` or `int`. -/
def toLong (n : ℕ) : ℤ := if n < 2 ^ 31 then n else (n : ℤ) - 2 ^ 32

/-- Conversion from `long` or `int`. -/
def ofLong (z : ℤ) : ℕ := (z % 2 ^ 32).toNat

lemma wrap32_of_lt {n : ℕ} (h : n < 2 ^ 32) : wrap32 n = n := Nat.mod_eq_of_lt h

lemma wrap32_lt (n : ℕ) : wrap32 n < 2 ^ 32 := Nat.mod_lt _ (by norm_num)

lemma sub32_of_le {a b : ℕ} (hba : b ≤ a) (ha : a < 2 ^ 32) : sub32 a b = a - b := by
  unfold sub32 wrap32
  omega

lemma ofLong_natCast (n : ℕ) : ofLong n = wrap32 n := by
  unfold ofLong wrap32
  omega

lemma ofLong_of_lt {n : ℕ} (h : n < 2 ^ 32) : ofLong n = n := by
  rw [ofLong_natCast, wrap32_of_lt h]

end Akaris
