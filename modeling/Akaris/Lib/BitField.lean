import Mathlib

/-!
# Bit-fields

A C bit-field is a range of bits of a machine word: `Field n` is such a range in an `n`-bit word,
`Field.get` reads it as a number and `Field.set` stores the low bits of a number in it.  Both are
characterised bit by bit, `testBit_get` and `getLsbD_set`, and the three laws used of them follow:
a field holds what was stored in it (`get_set_self`), storing to one field does not change a
disjoint one (`get_set_of_disjoint`), and a word is determined by fields that cover it (`ext`).
-/

namespace Akaris

/-- The `len` bits of an `n`-bit word from bit `lo` on. -/
structure Field (n : ℕ) where
  lo : ℕ
  len : ℕ
  fits : lo + len ≤ n

namespace Field

variable {n : ℕ}

/-- The value of a bit-field. -/
def get (f : Field n) (w : BitVec n) : ℕ := w.toNat >>> f.lo % 2 ^ f.len

/-- A word with ones in the field and zeros elsewhere. -/
def mask (f : Field n) : BitVec n := BitVec.ofNat n (2 ^ f.len - 1) <<< f.lo

/-- Storing to a bit-field: bits that do not fit are dropped. -/
def set (f : Field n) (w : BitVec n) (x : ℕ) : BitVec n :=
  (w &&& ~~~f.mask) ||| (BitVec.ofNat n (x % 2 ^ f.len) <<< f.lo)

/-- Two fields of a word share no bit. -/
def Disjoint (f g : Field n) : Prop := f.lo + f.len ≤ g.lo ∨ g.lo + g.len ≤ f.lo

instance (f g : Field n) : Decidable (f.Disjoint g) := inferInstanceAs (Decidable (_ ∨ _))

lemma testBit_get (f : Field n) (w : BitVec n) (i : ℕ) :
    (f.get w).testBit i = (decide (i < f.len) && w.getLsbD (f.lo + i)) := by
  rw [get, Nat.testBit_mod_two_pow, Nat.testBit_shiftRight]
  rfl

lemma getLsbD_set (f : Field n) (w : BitVec n) (x i : ℕ) :
    (f.set w x).getLsbD i =
      if f.lo ≤ i ∧ i < f.lo + f.len then x.testBit (i - f.lo) else w.getLsbD i := by
  have hfits := f.fits
  simp only [set, mask, BitVec.getLsbD_or, BitVec.getLsbD_and, BitVec.getLsbD_not,
    BitVec.getLsbD_shiftLeft, BitVec.getLsbD_ofNat, Nat.testBit_mod_two_pow,
    Nat.testBit_two_pow_sub_one]
  by_cases hi : i < n
  · by_cases hlo : f.lo ≤ i
    · have hlen : i - f.lo < f.len ↔ i < f.lo + f.len := by omega
      by_cases hin : i < f.lo + f.len <;>
        simp [hi, hlo, hlen, hin, show i - f.lo < n by omega, Nat.not_lt.mpr hlo]
    · simp [hi, hlo, Nat.lt_of_not_le hlo]
  · have hout : ¬(f.lo ≤ i ∧ i < f.lo + f.len) := by omega
    simp [hi, hout, BitVec.getLsbD_of_ge w i (by omega)]

/-- Bits that are stored do not depend on the old word. -/
lemma getLsbD_set_congr {f : Field n} {w w' : BitVec n} {x i : ℕ}
    (h : ¬(f.lo ≤ i ∧ i < f.lo + f.len) → w.getLsbD i = w'.getLsbD i) :
    (f.set w x).getLsbD i = (f.set w' x).getLsbD i := by
  rw [getLsbD_set, getLsbD_set]
  split_ifs with hin
  · rfl
  · exact h hin

/-- **A field holds what was stored in it**, as far as it fits. -/
lemma get_set_self (f : Field n) (w : BitVec n) (x : ℕ) : f.get (f.set w x) = x % 2 ^ f.len := by
  refine Nat.eq_of_testBit_eq fun i => ?_
  rw [testBit_get, getLsbD_set, Nat.testBit_mod_two_pow]
  by_cases hi : i < f.len
  · have hin : f.lo ≤ f.lo + i ∧ f.lo + i < f.lo + f.len := by omega
    rw [if_pos hin, Nat.add_sub_cancel_left]
  · simp [hi]

/-- **A store to one field leaves the others alone.** -/
lemma get_set_of_disjoint {f g : Field n} (h : f.Disjoint g) (w : BitVec n) (x : ℕ) :
    f.get (g.set w x) = f.get w := by
  refine Nat.eq_of_testBit_eq fun i => ?_
  rw [testBit_get, testBit_get, getLsbD_set]
  by_cases hi : i < f.len
  · have hout : ¬(g.lo ≤ f.lo + i ∧ f.lo + i < g.lo + g.len) := by
      rcases h with h | h <;> omega
    rw [if_neg hout]
  · simp [hi]

@[simp] lemma get_zero (f : Field n) : f.get 0 = 0 := by
  simp [get]

lemma get_lt (f : Field n) (w : BitVec n) : f.get w < 2 ^ f.len := Nat.mod_lt _ (by positivity)

/-- **A word is determined by fields that cover it.** -/
lemma ext {w w' : BitVec n}
    (h : ∀ i < n, ∃ f : Field n, (f.lo ≤ i ∧ i < f.lo + f.len) ∧ f.get w = f.get w') : w = w' := by
  refine BitVec.eq_of_getLsbD_eq fun i hi => ?_
  rcases h i hi with ⟨f, ⟨hlo, hhi⟩, hget⟩
  have hbit := congrArg (fun x => x.testBit (i - f.lo)) hget
  have hlen : i - f.lo < f.len := by omega
  simpa [testBit_get, hlen, Nat.add_sub_cancel' hlo] using hbit

end Field

end Akaris
