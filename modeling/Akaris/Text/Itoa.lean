import Akaris.Text.Defs

/-!
# Numerals

What `itoa` leaves in its buffer: the digits of the number, last one first, are stored by one loop
and reversed in place by the other.  `IsNumeral` says what a canonical numeral is, without reference
to how it is found; `numeral` is the one with the digits of `Nat.digits`.

* **`itoa_round_trip`** — `itoa` writes canonical numerals, in at most 12 bytes.
-/

namespace Akaris

/-! ## Canonical numerals -/

/-- The digit that a character stands for. -/
def digitValue (c : Byte) : ℕ := if c.toNat < 58 then c.toNat - 48 else c.toNat - 87

/-- Reading a numeral. -/
def parseNumeral (base : ℕ) (s : List Byte) : ℕ :=
  s.foldl (fun n c => base * n + digitValue c) 0

/-- Reading a numeral that may have a sign. -/
def parseSigned (s : List Byte) : ℤ :=
  if s.head? = some (ascii '-') then -(parseNumeral 10 s.tail) else parseNumeral 10 s

/-- **The canonical numeral** of `n`: no leading zero except in `0` itself. -/
structure IsNumeral (base n : ℕ) (s : List Byte) : Prop where
  value : parseNumeral base s = n
  digits : ∀ c ∈ s, ∃ r < base, c = digitByte r
  leading : s = [ascii '0'] ∨ ∃ c, s.head? = some c ∧ c ≠ ascii '0'

/-- **The canonical numeral** of a number that may be negative: a minus sign exactly if it is. -/
structure IsSignedNumeral (d : ℤ) (s : List Byte) : Prop where
  value : parseSigned s = d
  negative : d < 0 → ∃ s', s = ascii '-' :: s' ∧ IsNumeral 10 d.natAbs s'
  positive : 0 ≤ d → IsNumeral 10 d.natAbs s

/-- The digits of a number, the last one first, and at least one. -/
def digitsOf (base n : ℕ) : List ℕ := if n = 0 then [0] else Nat.digits base n

/-- The numeral of a number. -/
def numeral (base n : ℕ) : List Byte := (digitsOf base n).reverse.map digitByte

/-- The numeral of a number that may be negative. -/
def signedNumeral (d : ℤ) : List Byte :=
  if d < 0 then ascii '-' :: numeral 10 d.natAbs else numeral 10 d.natAbs

section Numerals

variable {base n k : ℕ}

lemma digitValue_digitByte : ∀ r < 16, digitValue (digitByte r) = r := by decide

lemma digitByte_ne_zero : ∀ r < 16, digitByte r ≠ 0 := by decide

lemma digitByte_eq_zero_iff : ∀ r < 16, digitByte r = ascii '0' → r = 0 := by decide

lemma digitByte_ne_minus : ∀ r < 16, digitByte r ≠ ascii '-' := by decide

lemma digitsOf_step (hbase : 2 ≤ base) (h : n / base ≠ 0) :
    digitsOf base n = n % base :: digitsOf base (n / base) := by
  have hn : n ≠ 0 := by
    rintro rfl
    exact h (Nat.zero_div base)
  rw [digitsOf, if_neg hn, digitsOf, if_neg h, Nat.digits_def' (by omega) (by omega)]

lemma digitsOf_last (hbase : 2 ≤ base) (h : n / base = 0) : digitsOf base n = [n % base] := by
  by_cases hn : n = 0
  · rw [digitsOf, if_pos hn, hn, Nat.zero_mod]
  · rw [digitsOf, if_neg hn, Nat.digits_def' (by omega) (by omega), h, Nat.digits_zero]

lemma digitsOf_lt (hbase : 2 ≤ base) : ∀ r ∈ digitsOf base n, r < base := by
  intro r hr
  rw [digitsOf] at hr
  split_ifs at hr with hn
  · rw [List.mem_singleton] at hr
    omega
  · exact Nat.digits_lt_base (by omega) hr

lemma digitsOf_length_le (hbase : 2 ≤ base) (hk : 0 < k) (hn : n < base ^ k) :
    (digitsOf base n).length ≤ k := by
  rw [digitsOf]
  split_ifs with h0
  · exact hk
  · exact (Nat.digits_length_le_iff (by omega) n).mpr hn

lemma digitsOf_ne_nil (base n : ℕ) : digitsOf base n ≠ [] := by
  rw [digitsOf]
  split_ifs with h0
  · exact List.cons_ne_nil 0 []
  · exact Nat.digits_ne_nil_iff_ne_zero.mpr h0

/-- **Reading the digits back.** -/
lemma parseNumeral_numeral (hbase : 2 ≤ base) (h16 : base ≤ 16) (n : ℕ) :
    parseNumeral base (numeral base n) = n := by
  have hvalue : ∀ l : List ℕ, (∀ r ∈ l, r < base) →
      parseNumeral base (l.reverse.map digitByte) = Nat.ofDigits base l := by
    intro l hl
    induction l with
    | nil => rfl
    | cons r l ih =>
        have hr : r < base := hl r List.mem_cons_self
        rw [parseNumeral] at ih ⊢
        rw [List.reverse_cons, List.map_append, List.foldl_append,
          ih fun r' hr' => hl r' (List.mem_cons_of_mem r hr'), Nat.ofDigits_cons, List.map_singleton,
          List.foldl_cons, List.foldl_nil, digitValue_digitByte r (by omega), Nat.add_comm]
  rw [numeral, hvalue _ (digitsOf_lt hbase), digitsOf]
  split_ifs with h0
  · rw [h0]
    rfl
  · exact Nat.ofDigits_digits base n

/-- **Canonicity.** -/
lemma numeral_isNumeral (hbase : 2 ≤ base) (h16 : base ≤ 16) (n : ℕ) :
    IsNumeral base n (numeral base n) := by
  refine ⟨parseNumeral_numeral hbase h16 n, ?_, ?_⟩
  · intro c hc
    rcases List.mem_map.mp hc with ⟨r, hr, rfl⟩
    exact ⟨r, digitsOf_lt hbase r (List.mem_reverse.mp hr), rfl⟩
  · by_cases h0 : n = 0
    · refine Or.inl ?_
      rw [numeral, digitsOf, if_pos h0]
      rfl
    · -- the most significant digit is not zero
      refine Or.inr ⟨digitByte ((Nat.digits base n).getLast (Nat.digits_ne_nil_iff_ne_zero.mpr h0)),
        ?_, fun heq => ?_⟩
      · rw [numeral, digitsOf, if_neg h0, List.head?_map, List.head?_reverse,
          List.getLast?_eq_getLast_of_ne_nil (Nat.digits_ne_nil_iff_ne_zero.mpr h0), Option.map_some]
      · have hlt := Nat.digits_lt_base (b := base) (by omega)
          (List.getLast_mem (Nat.digits_ne_nil_iff_ne_zero.mpr h0))
        exact Nat.getLast_digit_ne_zero base h0 (digitByte_eq_zero_iff _ (by omega) heq)

lemma signedNumeral_isSignedNumeral (d : ℤ) : IsSignedNumeral d (signedNumeral d) := by
  have hnumeral := numeral_isNumeral (show 2 ≤ 10 by norm_num) (by norm_num) d.natAbs
  by_cases hneg : d < 0
  · rw [signedNumeral, if_pos hneg]
    refine ⟨?_, fun _ => ⟨_, rfl, hnumeral⟩, fun h => absurd hneg (by omega)⟩
    rw [parseSigned, List.head?_cons, if_pos rfl, List.tail_cons, hnumeral.value]
    omega
  · rw [signedNumeral, if_neg hneg]
    refine ⟨?_, fun h => absurd h hneg, fun _ => hnumeral⟩
    have hhead : (numeral 10 d.natAbs).head? ≠ some (ascii '-') := by
      intro heq
      rcases hnumeral.digits _ (List.mem_of_head? heq) with ⟨r, hr, hdigit⟩
      exact digitByte_ne_minus r (by omega) hdigit.symm
    rw [parseSigned, if_neg hhead, hnumeral.value]
    omega

lemma numeral_length_le (hbase : 2 ≤ base) (hk : 0 < k) (hn : n < base ^ k) :
    (numeral base n).length ≤ k := by
  rw [numeral, List.length_map, List.length_reverse]
  exact digitsOf_length_le hbase hk hn

lemma signedNumeral_length_le {d : ℤ} (hlo : -2 ^ 31 ≤ d) (hhi : d < 2 ^ 31) :
    (signedNumeral d).length ≤ 11 := by
  have hlen : (numeral 10 d.natAbs).length ≤ 10 :=
    numeral_length_le (by norm_num) (by norm_num) (by omega)
  rw [signedNumeral]
  split_ifs
  · rw [List.length_cons]
    omega
  · omega

end Numerals

/-! ## What the loops do -/

/-- The bytes `s` stand in a buffer from `i` on. -/
def Buffer.Holds (b : Buffer) (i : ℤ) (s : List Byte) : Prop :=
  ∀ k (h : k < s.length), b.byte (i + k) = s[k]

/-- The bytes `s`, and no others, were written to a buffer, from `p` on. -/
structure Stored (b b' : Buffer) (p : ℤ) (s : List Byte) : Prop where
  bytes : b'.Holds p s
  written : ∀ i, i ∈ b'.written ↔ i ∈ b.written ∨ p ≤ i ∧ i < p + s.length
  others : ∀ i, i < p ∨ p + s.length ≤ i → b'.byte i = b.byte i

section Loops

variable {b : Buffer} {divisor n ud : ℕ} {p p1 p2 : ℤ}

@[simp] lemma store_byte_self (i : ℤ) (x : Byte) : (b.store i x).byte i = x := by
  show Function.update b.byte i x i = x
  exact Function.update_self i x b.byte

lemma store_byte_of_ne {i j : ℤ} (x : Byte) (h : j ≠ i) :
    (b.store i x).byte j = b.byte j := by
  show Function.update b.byte i x j = b.byte j
  exact Function.update_of_ne h x b.byte

@[simp] lemma mem_store_written {i j : ℤ} {x : Byte} :
    j ∈ (b.store i x).written ↔ j = i ∨ j ∈ b.written := Finset.mem_insert

lemma Stored.nil : Stored b b p [] := by
  refine ⟨fun k hk => absurd hk (Nat.not_lt_zero k), fun i => ?_, fun _ _ => rfl⟩
  simp only [List.length_nil]
  refine ⟨Or.inl, ?_⟩
  rintro (h | h)
  · exact h
  · omega

/-- One byte, and then the others. -/
lemma Stored.cons {b' : Buffer} {x : Byte} {s : List Byte} (h : Stored (b.store p x) b' (p + 1) s) :
    Stored b b' p (x :: s) := by
  refine ⟨?_, fun i => ?_, fun i hi => ?_⟩
  · rintro (_ | k) hk
    · rw [Nat.cast_zero, Int.add_zero, h.others p (Or.inl (by omega)), store_byte_self]
      rfl
    · have hk' : k < s.length := by simpa using hk
      have hbyte := h.bytes k hk'
      rw [show p + ((k + 1 : ℕ) : ℤ) = p + 1 + k by push_cast; ring, hbyte]
      rfl
  · rw [h.written, mem_store_written, List.length_cons]
    push_cast
    constructor
    · rintro ((h | h) | h)
      · exact Or.inr (by omega)
      · exact Or.inl h
      · exact Or.inr (by omega)
    · rintro (h | h)
      · exact Or.inl (Or.inr h)
      · by_cases hp : i = p
        · exact Or.inl (Or.inl hp)
        · exact Or.inr (by omega)
  · rw [List.length_cons] at hi
    push_cast at hi
    rw [h.others i (by omega), store_byte_of_ne x (by omega)]

/-- **Storing the digits.** -/
lemma itoaDigits_stored (hdivisor : 2 ≤ divisor) (hud : ud < divisor ^ (n + 1)) :
    (itoaDigits divisor (n + 1) ud p b).1 = p + (digitsOf divisor ud).length ∧
    Stored b (itoaDigits divisor (n + 1) ud p b).2 p ((digitsOf divisor ud).map digitByte) := by
  induction n generalizing ud p b with
  | zero =>
      have hzero : ud / divisor = 0 := Nat.div_eq_of_lt (by rwa [Nat.zero_add, pow_one] at hud)
      rw [itoaDigits, if_neg (not_not.mpr hzero), digitsOf_last hdivisor hzero]
      exact ⟨rfl, Stored.nil.cons⟩
  | succ n ih =>
      rw [itoaDigits]
      by_cases hzero : ud / divisor = 0
      · rw [if_neg (not_not.mpr hzero), digitsOf_last hdivisor hzero]
        exact ⟨rfl, Stored.nil.cons⟩
      · have hlt : ud / divisor < divisor ^ (n + 1) := by
          rw [Nat.div_lt_iff_lt_mul (by omega), ← pow_succ]
          exact hud
        rw [if_pos hzero, digitsOf_step hdivisor hzero]
        rcases ih (p := p + 1) (b := b.store p (digitByte (ud % divisor))) hlt with ⟨hend, hstored⟩
        refine ⟨?_, hstored.cons⟩
        rw [hend, List.length_cons]
        push_cast
        ring

/-- **The reversal**: the induction is on the number of swaps, each of which leaves the bytes between
to the next. -/
lemma itoaReverse_byte (hn : p2 - p1 < 2 * n) (i : ℤ) : (itoaReverse n p1 p2 b).byte i =
    if p1 ≤ i ∧ i ≤ p2 then b.byte (p1 + p2 - i) else b.byte i := by
  induction n generalizing p1 p2 b with
  | zero =>
      rw [itoaReverse, if_neg (by push_cast at hn; omega)]
  | succ n ih =>
      rw [itoaReverse]
      by_cases hlt : p1 < p2
      · rw [if_pos hlt, ih (by push_cast at hn; omega)]
        by_cases hin : p1 + 1 ≤ i ∧ i ≤ p2 - 1
        · rw [if_pos hin, if_pos (by omega), store_byte_of_ne _ (by omega),
            store_byte_of_ne _ (by omega)]
          congr 1
          ring
        · rw [if_neg hin]
          by_cases h2 : i = p2
          · rw [h2, store_byte_self, if_pos (by omega)]
            congr 1
            ring
          · rw [store_byte_of_ne _ h2]
            by_cases h1 : i = p1
            · rw [h1, store_byte_self, if_pos (by omega)]
              congr 1
              ring
            · rw [store_byte_of_ne _ h1, if_neg (by omega)]
      · rw [if_neg hlt]
        by_cases heq : p1 ≤ i ∧ i ≤ p2
        · rw [if_pos heq]
          congr 1
          omega
        · rw [if_neg heq]

/-- The reversal writes where it reads. -/
lemma itoaReverse_written (h : ∀ i, p1 ≤ i → i ≤ p2 → i ∈ b.written) :
    (itoaReverse n p1 p2 b).written = b.written := by
  induction n generalizing p1 p2 b with
  | zero => rfl
  | succ n ih =>
      rw [itoaReverse]
      by_cases hlt : p1 < p2
      · have hsame : ((b.store p1 (b.byte p2)).store p2 (b.byte p1)).written = b.written := by
          ext i
          rw [mem_store_written, mem_store_written]
          refine ⟨?_, fun hi => Or.inr (Or.inr hi)⟩
          rintro (rfl | rfl | hi)
          · exact h i (by omega) le_rfl
          · exact h i le_rfl (by omega)
          · exact hi
        rw [if_pos hlt, ih (fun i h1 h2 => by rw [hsame]; exact h i (by omega) (by omega)), hsame]
      · rw [if_neg hlt]

/-- The digits, the terminator and the reversal. -/
lemma itoaTail_stored (hdivisor : 2 ≤ divisor) (hud : ud < 2 ^ 32) (b : Buffer) (p : ℤ) :
    Stored b (itoaReverse 32 p ((itoaDigits divisor 32 ud p b).1 - 1)
      ((itoaDigits divisor 32 ud p b).2.store (itoaDigits divisor 32 ud p b).1 0)) p
      (numeral divisor ud ++ [0]) := by
  have hpow : ud < divisor ^ 32 := lt_of_lt_of_le hud (Nat.pow_le_pow_left hdivisor 32)
  have hlen := digitsOf_length_le (n := ud) hdivisor (by norm_num) hpow
  rcases itoaDigits_stored (p := p) (b := b) hdivisor hpow with ⟨hend, hbytes, hwritten, hothers⟩
  generalize (itoaDigits divisor 32 ud p b).2 = b₁ at *
  rw [hend]
  rw [List.length_map] at hwritten hothers
  have hnumeral : (numeral divisor ud).length = (digitsOf divisor ud).length := by
    rw [numeral, List.length_map, List.length_reverse]
  generalize hl : (digitsOf divisor ud).length = l at *
  refine ⟨?_, fun i => ?_, fun i hi => ?_⟩
  · intro k hk
    rw [List.length_append, List.length_singleton, hnumeral] at hk
    rw [itoaReverse_byte (by push_cast; omega)]
    by_cases hlast : k = l
    · have hnul : p + (k : ℤ) = p + l := by omega
      rw [if_neg (by omega), hnul, store_byte_self, List.getElem_append_right (by omega)]
      simp [hnumeral, hlast]
    · rw [if_pos (by omega), store_byte_of_ne _ (by omega)]
      have hdigit := hbytes (l - 1 - k) (by rw [List.length_map]; omega)
      rw [show p + (p + (l : ℤ) - 1) - (p + (k : ℤ)) = p + ((l - 1 - k : ℕ) : ℤ) by omega, hdigit,
        List.getElem_append_left (by omega)]
      simp only [numeral, List.getElem_map, List.getElem_reverse, hl]
  · rw [itoaReverse_written, mem_store_written, hwritten, List.length_append, List.length_singleton,
      hnumeral]
    · push_cast
      constructor
      · rintro (h | h | h)
        · exact Or.inr (by omega)
        · exact Or.inl h
        · exact Or.inr (by omega)
      · rintro (h | h)
        · exact Or.inr (Or.inl h)
        · by_cases hlast : i = p + l
          · exact Or.inl hlast
          · exact Or.inr (Or.inr (by omega))
    · intro i h1 h2
      rw [mem_store_written, hwritten]
      exact Or.inr (Or.inr (by omega))
  · rw [List.length_append, List.length_singleton, hnumeral] at hi
    push_cast at hi
    rw [itoaReverse_byte (by push_cast; omega), if_neg (by omega), store_byte_of_ne _ (by omega),
      hothers i (by omega)]

end Loops

/-! ## `itoa` -/

/-- **Decimal numerals**, with a sign if the number is negative. -/
lemma itoa_decimal {d : ℤ} (hlo : -2 ^ 31 ≤ d) (hhi : d < 2 ^ 31) (b : Buffer) :
    Stored b (itoa 'd' d b) 0 (signedNumeral d ++ [0]) := by
  by_cases hneg : d < 0
  · have hud : ofLong (-d) = d.natAbs := by
      unfold ofLong
      omega
    have hstored := itoaTail_stored (show 2 ≤ 10 by norm_num) (show d.natAbs < 2 ^ 32 by omega)
      (b.store 0 (ascii '-')) 1
    simp only [itoa, hneg, and_self, if_true, hud, not_true_eq_false, false_and, if_false,
      signedNumeral]
    exact hstored.cons
  · have hud : ofLong d = d.natAbs := by
      unfold ofLong
      omega
    have hstored := itoaTail_stored (show 2 ≤ 10 by norm_num) (show d.natAbs < 2 ^ 32 by omega) b 0
    have hx : ¬('d' : Char) = 'x' := by decide
    simp only [itoa, hneg, and_false, if_false, hud, hx, signedNumeral]
    exact hstored

/-- **Hexadecimal numerals.** -/
lemma itoa_hex (d : ℤ) (b : Buffer) : Stored b (itoa 'x' d b) 0 (numeral 16 (ofLong d) ++ [0]) := by
  have hud : ofLong d < 2 ^ 32 := by
    unfold ofLong
    omega
  have hstored := itoaTail_stored (show 2 ≤ 16 by norm_num) hud b 0
  have hd : ¬('x' : Char) = 'd' := by decide
  simp only [itoa, hd, false_and, if_false, not_false_eq_true, and_self, if_true]
  exact hstored

/-- **`itoa` round-trips.**  For every `int` it writes the canonical decimal numeral, and the
canonical hexadecimal numeral of the number modulo `2 ^ 32`, each with a terminator, to at most 12
bytes. -/
theorem itoa_round_trip {d : ℤ} (hlo : -2 ^ 31 ≤ d) (hhi : d < 2 ^ 31) (b : Buffer) :
    (∃ s, IsSignedNumeral d s ∧ s.length + 1 ≤ 12 ∧ Stored b (itoa 'd' d b) 0 (s ++ [0])) ∧
    ∃ s, IsNumeral 16 (d % 2 ^ 32).toNat s ∧ s.length + 1 ≤ 12 ∧
      Stored b (itoa 'x' d b) 0 (s ++ [0]) := by
  have hlen := signedNumeral_length_le hlo hhi
  have hlen' : (numeral 16 (ofLong d)).length ≤ 8 :=
    numeral_length_le (by norm_num) (by norm_num) (by unfold ofLong; omega)
  exact ⟨⟨signedNumeral d, signedNumeral_isSignedNumeral d, by omega, itoa_decimal hlo hhi b⟩,
    numeral 16 (ofLong d), numeral_isNumeral (by norm_num) (by norm_num) _, by omega, itoa_hex d b⟩

/-- The smallest `int`, whose negation wraps around. -/
theorem itoa_round_trip_min :
    (∃ s, IsSignedNumeral (-2 ^ 31) s ∧ s.length + 1 ≤ 12 ∧
      Stored ⟨fun _ => 0, ∅⟩ (itoa 'd' (-2 ^ 31) ⟨fun _ => 0, ∅⟩) 0 (s ++ [0])) ∧
    ∃ s, IsNumeral 16 (2 ^ 31) s ∧ s.length + 1 ≤ 12 ∧
      Stored ⟨fun _ => 0, ∅⟩ (itoa 'x' (-2 ^ 31) ⟨fun _ => 0, ∅⟩) 0 (s ++ [0]) :=
  itoa_round_trip le_rfl (by norm_num) ⟨fun _ => 0, ∅⟩

end Akaris
