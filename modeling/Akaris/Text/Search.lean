import Akaris.Text.Defs

/-!
# Searching a string

`strstr` tries `strncmp` at every character of the haystack that is the first of the needle.  A
comparison of as many characters as the needle has stops at the end of the haystack at the latest,
`strncmp_spec`, so nothing is read behind a terminator.

* **`strstr_exact`** — the search returns, with the first occurrence if there is one.
-/

namespace Akaris

section Search

variable {s s1 s2 haystack needle : List Byte} {n i j : ℕ}

lemma charAt_of_lt (h : i < s.length) : charAt s i = .ok s[i] := dif_pos h

@[simp] lemma charAt_length : charAt s s.length = .ok 0 := by
  rw [charAt, dif_neg (lt_irrefl _), if_pos rfl]

lemma getElem_ne_zero (hs : 0 ∉ s) (h : i < s.length) : s[i] ≠ 0 :=
  fun heq => hs (heq ▸ List.getElem_mem h)

lemma strlenLoop_eq (hs : 0 ∉ s) (hi : i + n = s.length) :
    strlenLoop s (n + 1) i = .ok s.length := by
  induction n generalizing i with
  | zero =>
      obtain rfl : i = s.length := by omega
      simp [strlenLoop]
  | succ n ih =>
      have hlt : i < s.length := by omega
      rw [strlenLoop, charAt_of_lt hlt, Prog.ok_bind, if_neg (getElem_ne_zero hs hlt)]
      exact ih (by omega)

/-- `strlen` finds the terminator. -/
lemma strlen_eq (hs : 0 ∉ s) : strlen s = .ok s.length := strlenLoop_eq hs (Nat.zero_add _)

/-- **Comparing** the rest of `s2` to what is at `i` in `s1`: zero exactly if it is there. -/
lemma strncmp_spec (h1 : 0 ∉ s1) (h2 : 0 ∉ s2) (hi : i ≤ s1.length) (hn : n + j = s2.length) :
    ∃ v, strncmp s1 s2 n i j = .ok v ∧ (v = 0 ↔ s2.drop j <+: s1.drop i) := by
  induction n generalizing i j with
  | zero =>
      refine ⟨0, rfl, fun _ => ?_, fun _ => rfl⟩
      rw [List.drop_eq_nil_of_le (by omega)]
      exact List.nil_prefix
  | succ n ih =>
      have hj : j < s2.length := by omega
      have hb0 := getElem_ne_zero h2 hj
      rw [List.drop_eq_getElem_cons hj]
      rcases Nat.lt_or_eq_of_le hi with hlt | rfl
      · have ha0 := getElem_ne_zero h1 hlt
        rw [List.drop_eq_getElem_cons hlt, List.cons_prefix_cons]
        simp only [strncmp, charAt_of_lt hlt, charAt_of_lt hj, Prog.ok_bind, if_neg ha0, if_neg hb0]
        by_cases hgt : s1[i].toInt > s2[j].toInt
        · rw [if_pos hgt]
          refine ⟨1, rfl, fun h => absurd h one_ne_zero, fun h => ?_⟩
          rw [h.1] at hgt
          exact absurd hgt (lt_irrefl _)
        · by_cases hlt' : s1[i].toInt < s2[j].toInt
          · rw [if_neg hgt, if_pos hlt']
            refine ⟨-1, rfl, fun h => absurd h (by norm_num), fun h => ?_⟩
            rw [h.1] at hlt'
            exact absurd hlt' (lt_irrefl _)
          · rw [if_neg hgt, if_neg hlt']
            have heq : s2[j] = s1[i] := BitVec.eq_of_toInt_eq (by omega)
            rcases ih (i := i + 1) (j := j + 1) (by omega) (by omega) with ⟨v, hv, hiff⟩
            exact ⟨v, hv, hiff.trans ⟨fun h => ⟨heq, h⟩, fun h => h.2⟩⟩
      · -- the haystack ends first
        simp only [strncmp, charAt_length, charAt_of_lt hj, Prog.ok_bind, if_pos, if_neg hb0]
        refine ⟨-1, rfl, fun h => absurd h (by norm_num), fun h => ?_⟩
        rw [List.drop_length] at h
        exact absurd (List.prefix_nil.mp h) (List.cons_ne_nil _ _)

/-- **The search** from `i` on: the induction is on what is left of the haystack. -/
lemma strstrLoop_spec (hh : 0 ∉ haystack) (hn : 0 ∉ needle) (hne : needle ≠ [])
    (hi : i + n = haystack.length) :
    ∃ r, strstrLoop haystack needle (n + 1) i = .ok r ∧
      (∀ k, r = some k ↔ needle <+: haystack.drop k ∧ i ≤ k ∧
        ∀ j, i ≤ j → j < k → ¬needle <+: haystack.drop j) ∧
      (r = none ↔ ∀ j, i ≤ j → ¬needle <+: haystack.drop j) := by
  have hpos : 0 < needle.length := List.length_pos_iff.mpr hne
  have hbehind : ∀ j, haystack.length ≤ j → ¬needle <+: haystack.drop j := by
    intro j hj h
    rw [List.drop_eq_nil_of_le hj] at h
    exact hne (List.prefix_nil.mp h)
  induction n generalizing i with
  | zero =>
      obtain rfl : i = haystack.length := by omega
      refine ⟨none, by simp [strstrLoop], fun k => ⟨fun h => by simp at h, fun h => ?_⟩,
        fun _ => hbehind, fun _ => rfl⟩
      exact absurd h.1 (hbehind k h.2.1)
  | succ n ih =>
      have hlt : i < haystack.length := by omega
      have hc0 := getElem_ne_zero hh hlt
      rcases ih (i := i + 1) (by omega) with ⟨r, hr, hsome, hnone⟩
      rcases strncmp_spec hh hn (i := i) (n := needle.length) (j := 0) (by omega) (by omega) with
        ⟨v, hv, hiff⟩
      rw [List.drop_zero] at hiff
      -- what is found behind `i` is found first if the needle is not at `i`
      have hskip : ¬needle <+: haystack.drop i →
          (∀ k, r = some k ↔ needle <+: haystack.drop k ∧ i ≤ k ∧
            ∀ j, i ≤ j → j < k → ¬needle <+: haystack.drop j) ∧
          (r = none ↔ ∀ j, i ≤ j → ¬needle <+: haystack.drop j) := by
        intro hnot
        refine ⟨fun k => (hsome k).trans ⟨?_, ?_⟩, hnone.trans ⟨?_, ?_⟩⟩
        · rintro ⟨hk, hik, hfirst⟩
          refine ⟨hk, by omega, fun j hij hjk => ?_⟩
          rcases Nat.lt_or_eq_of_le hij with hij | rfl
          · exact hfirst j hij hjk
          · exact hnot
        · rintro ⟨hk, hik, hfirst⟩
          refine ⟨hk, ?_, fun j hij hjk => hfirst j (by omega) hjk⟩
          rcases Nat.lt_or_eq_of_le hik with hik | rfl
          · exact hik
          · exact absurd hk hnot
        · intro h j hij
          rcases Nat.lt_or_eq_of_le hij with hij | rfl
          · exact h j hij
          · exact hnot
        · exact fun h j hij => h j (by omega)
      rw [strstrLoop]
      simp only [charAt_of_lt hlt, charAt_of_lt hpos, Prog.ok_bind, if_neg hc0, strlen_eq hn, hv]
      by_cases hfirst : haystack[i] = needle[0]
      · rw [if_pos hfirst]
        by_cases hv0 : v = 0
        · rw [if_pos hv0]
          have hfound := hiff.mp hv0
          refine ⟨some i, rfl, fun k => ⟨fun h => ?_, fun h => ?_⟩, fun h => by simp at h, fun h => ?_⟩
          · obtain rfl := Option.some.inj h
            exact ⟨hfound, le_rfl, fun j hij hji => absurd hij (by omega)⟩
          · by_cases hik : i = k
            · rw [hik]
            · exact absurd hfound (h.2.2 i le_rfl (by omega))
          · exact absurd hfound (h i le_rfl)
        · rw [if_neg hv0]
          exact ⟨r, hr, hskip fun h => hv0 (hiff.mpr h)⟩
      · rw [if_neg hfirst]
        refine ⟨r, hr, hskip fun h => hfirst ?_⟩
        rw [List.drop_eq_getElem_cons hlt, ← List.cons_head_tail hne, List.cons_prefix_cons] at h
        rw [← h.1, List.head_eq_getElem]

end Search

/-- **The search is exact.**  It returns, without a read behind a terminator, the first position at
which the needle occurs, and `NULL` if it occurs nowhere. -/
theorem strstr_exact {haystack needle : List Byte} (hh : 0 ∉ haystack) (hn : 0 ∉ needle)
    (hne : needle ≠ []) :
    ∃ r, strstr haystack needle = .ok r ∧
      (∀ i, r = some i ↔ needle <+: haystack.drop i ∧ ∀ j < i, ¬needle <+: haystack.drop j) ∧
      (r = none ↔ ∀ i, ¬needle <+: haystack.drop i) := by
  rcases strstrLoop_spec hh hn hne (Nat.zero_add haystack.length) with ⟨r, hr, hsome, hnone⟩
  refine ⟨r, hr, fun i => (hsome i).trans ⟨?_, ?_⟩, hnone.trans ⟨?_, ?_⟩⟩
  · rintro ⟨hi, -, hfirst⟩
    exact ⟨hi, fun j hj => hfirst j (Nat.zero_le j) hj⟩
  · rintro ⟨hi, hfirst⟩
    exact ⟨hi, Nat.zero_le i, fun j _ hj => hfirst j hj⟩
  · exact fun h i => h i (Nat.zero_le i)
  · exact fun h i _ => h i

/-- A needle that overlaps itself, behind a false start. -/
theorem strstr_exact_two :
    ∃ r, strstr (List.map ascii ['a', 'a', 'b', 'a', 'a', 'c']) (List.map ascii ['a', 'a', 'c'])
        = .ok r ∧
      (∀ i, r = some i ↔ List.map ascii ['a', 'a', 'c'] <+:
          (List.map ascii ['a', 'a', 'b', 'a', 'a', 'c']).drop i ∧
        ∀ j < i, ¬List.map ascii ['a', 'a', 'c'] <+:
          (List.map ascii ['a', 'a', 'b', 'a', 'a', 'c']).drop j) ∧
      (r = none ↔ ∀ i, ¬List.map ascii ['a', 'a', 'c'] <+:
        (List.map ascii ['a', 'a', 'b', 'a', 'a', 'c']).drop i) :=
  strstr_exact (by decide) (by decide) (by decide)

end Akaris
