import Akaris.Text.Format

/-!
# What `k_snprintf` does for a format

A format is a list of pieces, and possibly a `%` with nothing behind it.  `formatLoop_pieces` is
the induction over the pieces: either all of them are printed, or `output` is full before.  Three
results come from it.

**Overflow.**  Whatever the format is, `k_snprintf_vaarg` stores a `'\0'` in front of `output`;
everything else that it writes is in `output`: `printf_overflows`.

**Rendering.**  `output` is what the format says exactly when no `%u` gets an argument of 2³¹ or
more, as `itoa` takes it for a negative number: `printf_rendering_iff`.

**Parsing.**  The loop stays in the format exactly when it does not come to a `%` with nothing
behind it, which it does unless `output` is full before: `printf_parsing_iff`.
-/

namespace Akaris

/-- The characters of a format. -/
def formatOf (ps : List Piece) : List Byte := ps.flatMap Piece.bytes

/-- A piece as the loop meets it: a literal is not `%`, and no character is the terminator. -/
def Piece.Proper : Piece → Prop
  | .literal c => c ≠ 0 ∧ c ≠ ascii '%'
  | .directive c => c ≠ 0

/-- What is printed for pieces, from the argument `ap` on. -/
def printedText (va : VaList) : (ap : ℕ) → List Piece → List Byte
  | _, [] => []
  | ap, p :: ps => p.printed va ap ++ printedText va (ap + p.args) ps

/-- The characters `t` are in memory at `i`. -/
def TextAt (fmt : ℕ → Byte) (i : ℕ) (t : List Byte) : Prop :=
  ∀ j (h : j < t.length), fmt (i + j) = t[j]

section Pieces

variable {s : PrintfState} {fmt : ℕ → Byte} {maxlen : ℤ} {va : VaList} {format ap out : ℕ}

/-! ## Pieces -/

lemma textAt_append {t₁ t₂ : List Byte} :
    TextAt fmt format (t₁ ++ t₂) ↔ TextAt fmt format t₁ ∧ TextAt fmt (format + t₁.length) t₂ := by
  constructor
  · intro h
    refine ⟨fun j hj => ?_, fun j hj => ?_⟩
    · rw [h j (by rw [List.length_append]; omega), List.getElem_append_left hj]
    · rw [Nat.add_assoc, h (t₁.length + j) (by rw [List.length_append]; omega),
        List.getElem_append_right (Nat.le_add_right _ _)]
      simp
  · rintro ⟨h₁, h₂⟩ j hj
    by_cases hlt : j < t₁.length
    · rw [h₁ j hlt, List.getElem_append_left hlt]
    · have hj₂ := h₂ (j - t₁.length) (by rw [List.length_append] at hj; omega)
      rw [List.getElem_append_right (by omega), ← hj₂]
      congr 1
      omega

@[simp] lemma formatOf_nil : formatOf [] = [] := rfl

@[simp] lemma formatOf_cons (p : Piece) (ps : List Piece) :
    formatOf (p :: ps) = p.bytes ++ formatOf ps := rfl

/-- Where the characters of a piece are, the loop finds that piece. -/
lemma pieceAt_eq {p : Piece} (hp : p.Proper) (hat : TextAt fmt format p.bytes) :
    pieceAt fmt format = p ∧ fmt format ≠ 0 := by
  rw [pieceAt]
  cases p with
  | literal c =>
      have hc : fmt format = c := hat 0 Nat.one_pos
      rw [hc, if_neg hp.2]
      exact ⟨rfl, hp.1⟩
  | directive c =>
      have hpercent : fmt format = ascii '%' := hat 0 Nat.two_pos
      have hc : fmt (format + 1) = c := hat 1 Nat.one_lt_two
      rw [hpercent, if_pos rfl, hc]
      exact ⟨rfl, by decide⟩

/-- The text `t` is in `output` behind `out`, as far as there is room for it and for one more
character, and nothing has changed in front of `out`. -/
structure Printed (maxlen : ℤ) (out : ℕ) (t : List Byte) (b b' : Buffer) : Prop where
  bytes : ∀ i (h : i < t.length), (out + i : ℤ) + 1 < maxlen → b'.byte (out + i) = t[i]
  before : ∀ j < (out : ℤ), b'.byte j = b.byte j

lemma Printed.append {t₁ t₂ : List Byte} {b b₁ b₂ : Buffer} (h₁ : Printed maxlen out t₁ b b₁)
    (h₂ : Printed maxlen (out + t₁.length) t₂ b₁ b₂) : Printed maxlen out (t₁ ++ t₂) b b₂ := by
  refine ⟨fun i hi hroom => ?_, fun j hj => ?_⟩
  · by_cases hlt : i < t₁.length
    · rw [h₂.before _ (by push_cast; omega), h₁.bytes i hlt hroom, List.getElem_append_left hlt]
    · have hi₂ : i - t₁.length < t₂.length := by
        rw [List.length_append] at hi
        omega
      have hbyte := h₂.bytes (i - t₁.length) hi₂ (by push_cast; omega)
      rw [List.getElem_append_right (by omega), ← hbyte]
      congr 1
      push_cast
      omega
  · rw [h₂.before j (by push_cast; omega), h₁.before j hj]

/-- When `output` is full, what would come next does not matter. -/
lemma Printed.full {t₁ t₂ : List Byte} {b b₁ : Buffer} (h₁ : Printed maxlen out t₁ b b₁)
    (hfull : maxlen ≤ (out + t₁.length : ℕ)) : Printed maxlen out (t₁ ++ t₂) b b₁ := by
  refine ⟨fun i hi hroom => ?_, h₁.before⟩
  have hlt : i < t₁.length := by
    push_cast at hfull
    omega
  rw [h₁.bytes i hlt hroom, List.getElem_append_left hlt]

/-- What the loop has done with the pieces of a format: it is behind them, or `output` was full
before. -/
structure PiecesDone (fmt : ℕ → Byte) (maxlen : ℤ) (va : VaList) (format ap out : ℕ)
    (ps : List Piece) (s s' : PrintfState) : Prop where
  furthest : ∀ m, s.furthest ≤ m → format + (formatOf ps).length ≤ m + 1 → s'.furthest ≤ m
  printed : (out : ℤ) < maxlen → maxlen < 2 ^ 31 →
    Printed maxlen out (printedText va ap ps) s.output s'.output
  runs : (∀ n, (formatLoop fmt maxlen va (ps.length + n) format ap out).run s
        = (formatLoop fmt maxlen va n (format + (formatOf ps).length)
          (ap + (ps.map Piece.args).sum) (out + (printedText va ap ps).length)).run s') ∧
      (ps = [] ∨ (out + (printedText va ap ps).length : ℕ) < maxlen) ∨
    maxlen ≤ (out + (printedText va ap ps).length : ℕ) ∧ ∃ out' : ℕ, maxlen ≤ out' ∧
      ∀ n, (formatLoop fmt maxlen va (ps.length + n) format ap out).run s = .ok (out', s')

/-- **The pieces of a format** are printed one by one. -/
lemma formatLoop_pieces (maxlen : ℤ) (va : VaList) {ps : List Piece}
    (hproper : ∀ p ∈ ps, p.Proper) :
    ∀ (format ap out : ℕ) (s : PrintfState), TextAt fmt format (formatOf ps) →
      ∃ s', PiecesDone fmt maxlen va format ap out ps s s' := by
  induction ps with
  | nil =>
      intro format ap out s _
      refine ⟨s, fun m hm _ => hm, fun _ _ => ⟨fun i hi => absurd hi (Nat.not_lt_zero i),
        fun _ _ => rfl⟩, Or.inl ⟨fun n => ?_, Or.inl rfl⟩⟩
      show _ = (formatLoop fmt maxlen va n (format + 0) (ap + 0) (out + 0)).run s
      rw [List.length_nil, Nat.zero_add, Nat.add_zero, Nat.add_zero, Nat.add_zero]
  | cons p ps ih =>
      intro format ap out s hat
      rw [formatOf_cons, textAt_append] at hat
      have hpiece := pieceAt_eq (hproper p (List.mem_cons_self)) hat.1
      rcases formatLoop_step maxlen va ap out hpiece.2 s with
        ⟨s₁, houtput, hfurthest, hstep⟩
      rw [hpiece.1] at houtput hfurthest hstep
      have hprinted : (out : ℤ) < maxlen → maxlen < 2 ^ 31 →
          Printed maxlen out (p.printed va ap) s.output s₁.output := by
        intro hout hmax
        rw [houtput]
        exact ⟨(p.output_spec hout hmax).1, (p.output_spec hout hmax).2.1⟩
      by_cases hfull : maxlen ≤ (out + (p.printed va ap).length : ℕ)
      · refine ⟨s₁, fun m hm hlen => ?_, fun hout hmax => (hprinted hout hmax).full hfull,
          Or.inr ⟨?_, out + (p.printed va ap).length, hfull, fun n => ?_⟩⟩
        · rw [formatOf_cons, List.length_append] at hlen
          omega
        · rw [printedText, List.length_append]
          push_cast at hfull ⊢
          omega
        · rw [List.length_cons, Nat.add_right_comm, hstep, if_pos hfull]
      · rcases ih (fun q hq => hproper q (List.mem_cons_of_mem p hq)) _ (ap + p.args)
          (out + (p.printed va ap).length) s₁ hat.2 with ⟨s', hdone⟩
        refine ⟨s', fun m hm hlen => ?_, fun hout hmax => ?_, ?_⟩
        · rw [formatOf_cons, List.length_append] at hlen
          have hpos := p.bytes_length_pos
          exact hdone.furthest m (by omega) (by omega)
        · exact (hprinted hout hmax).append (hdone.printed (by omega) hmax)
        · have hrun : ∀ n, (formatLoop fmt maxlen va ((p :: ps).length + n) format ap out).run s
              = (formatLoop fmt maxlen va (ps.length + n) (format + p.bytes.length)
                (ap + p.args) (out + (p.printed va ap).length)).run s₁ := by
            intro n
            rw [List.length_cons, Nat.add_right_comm, hstep, if_neg hfull]
          have htext : out + (printedText va ap (p :: ps)).length
              = out + (p.printed va ap).length + (printedText va (ap + p.args) ps).length := by
            rw [printedText, List.length_append, Nat.add_assoc]
          rw [htext]
          rcases hdone.runs with ⟨hgo, hroom⟩ | ⟨hlen, out', hout', hstop⟩
          · refine Or.inl ⟨fun n => ?_, ?_⟩
            · rw [hrun, hgo, formatOf_cons, List.length_append, List.map_cons, List.sum_cons,
                ← Nat.add_assoc, ← Nat.add_assoc]
            · rcases hroom with rfl | hroom
              · exact Or.inr (by rw [printedText, List.length_nil, Nat.add_zero]; omega)
              · exact Or.inr hroom
          · exact Or.inr ⟨hlen, out', hout', fun n => by rw [hrun, hstop]⟩

/-- What `k_snprintf_vaarg` stores behind its loop. -/
def printfEnd (maxlen : ℤ) (out : ℕ) (b : Buffer) : Buffer :=
  (if (out : ℤ) < maxlen then b.store out 0 else b).store (-1) 0

lemma kSnprintfVaarg_run {n : ℕ} {s₁ : PrintfState}
    (hloop : (formatLoop fmt maxlen va n 0 0 0).run s = .ok (out, s₁)) :
    (kSnprintfVaarg n maxlen fmt va).run s
      = .ok ((), { s₁ with output := printfEnd maxlen out s₁.output }) := by
  rw [kSnprintfVaarg, Prog.run_bind_ok hloop, printfEnd]
  split_ifs
  · rfl
  · rfl

/-- A run that returned had its loop return. -/
lemma kSnprintfVaarg_inv {n : ℕ} {s' : PrintfState}
    (hrun : (kSnprintfVaarg n maxlen fmt va).run s = .ok ((), s')) : ∃ out s₁,
    (formatLoop fmt maxlen va n 0 0 0).run s = .ok (out, s₁) ∧
    s' = { s₁ with output := printfEnd maxlen out s₁.output } := by
  rcases Prog.run_bind_iff.mp hrun with ⟨out, s₁, hloop, -⟩
  have heq := (kSnprintfVaarg_run hloop).symm.trans hrun
  exact ⟨out, s₁, hloop, (congrArg Prod.snd (Except.ok.inj heq)).symm⟩

lemma printfEnd_byte {b : Buffer} {j : ℤ} (h0 : 0 ≤ j) (hj : j < out) :
    (printfEnd maxlen out b).byte j = b.byte j := by
  rw [printfEnd, store_byte_of_ne 0 (by omega)]
  split_ifs
  · exact store_byte_of_ne 0 (by omega)
  · rfl

lemma printfEnd_terminator {b : Buffer} (hlt : (out : ℤ) < maxlen) :
    (printfEnd maxlen out b).byte out = 0 := by
  rw [printfEnd, store_byte_of_ne 0 (by omega), if_pos hlt, store_byte_self]

/-! ## Overflow -/

/-- What is promised of `output` at a return: only its `maxlen` bytes were written, and one of them
is a terminator that nothing was written behind. -/
structure Contained (maxlen : ℤ) (b : Buffer) : Prop where
  inside : ∀ j ∈ b.written, 0 ≤ j ∧ j < maxlen
  terminated : ∃ j, 0 ≤ j ∧ j < maxlen ∧ b.byte j = 0 ∧ ∀ k ∈ b.written, k ≤ j

/-- The loop writes into `output` only. -/
lemma formatLoop_written (hmax : maxlen < 2 ^ 31) {n r : ℕ} {s' : PrintfState}
    (hout : (out : ℤ) < maxlen)
    (hrun : (formatLoop fmt maxlen va n format ap out).run s = .ok (r, s')) :
    ∀ j ∈ s'.output.written, j ∈ s.output.written ∨ 0 ≤ j ∧ j < maxlen := by
  refine formatLoop_rule (I := fun _ _ out t => (out : ℤ) < maxlen ∧
      ∀ j ∈ t.output.written, j ∈ s.output.written ∨ 0 ≤ j ∧ j < maxlen)
    (Q := fun t => ∀ j ∈ t.output.written, j ∈ s.output.written ∨ 0 ≤ j ∧ j < maxlen)
    (fun _ _ _ _ h _ => h.2) (fun format ap out t t' h _ ht _ => ?_)
    ⟨hout, fun j hj => Or.inl hj⟩ hrun
  have hwritten : ∀ j ∈ t'.output.written, j ∈ s.output.written ∨ 0 ≤ j ∧ j < maxlen := by
    intro j hj
    rw [ht] at hj
    rcases ((pieceAt fmt format).output_spec h.1 hmax).2.2 j hj with hj | hj
    · exact h.2 j hj
    · exact Or.inr ⟨by omega, hj.2⟩
  split_ifs with hfull
  · exact hwritten
  · exact ⟨by omega, hwritten⟩

/-- **`k_snprintf_vaarg` writes in front of `output`**, whatever it is called with, and nowhere else
outside of it. -/
theorem printf_overflows {n : ℕ} {s' : PrintfState} (hmin : 1 ≤ maxlen) (hmax : maxlen < 2 ^ 31)
    (hs : s.output.written = ∅) (hrun : (kSnprintfVaarg n maxlen fmt va).run s = .ok ((), s')) :
    ¬Contained maxlen s'.output ∧
      ∀ j ∈ s'.output.written, j = -1 ∨ 0 ≤ j ∧ j < maxlen := by
  rcases kSnprintfVaarg_inv hrun with ⟨out, s₁, hloop, rfl⟩
  have hloop' := formatLoop_written hmax (by push_cast; omega) hloop
  refine ⟨fun h => ?_, fun j hj => ?_⟩
  · have hinside := h.inside (-1) (Finset.mem_insert_self _ _)
    omega
  · rcases Finset.mem_insert.mp hj with h | h
    · exact Or.inl h
    · have hmem : j ∈ s₁.output.written ∨ 0 ≤ j ∧ j < maxlen := by
        split_ifs at h with hlt
        · rcases Finset.mem_insert.mp h with rfl | h
          · exact Or.inr ⟨Int.natCast_nonneg out, hlt⟩
          · exact Or.inl h
        · exact Or.inl h
      rcases hmem with h | h
      · rcases hloop' j h with h | h
        · rw [hs] at h
          exact absurd h (Finset.notMem_empty j)
        · exact Or.inr h
      · exact Or.inr h

/-- A string as memory. -/
def stringAt (t : List Char) (i : ℕ) : Byte := ((t.map ascii)[i]?).getD 0

/-- No arguments but zeroes, which point to empty strings. -/
def zeroArgs : VaList := ⟨fun _ => 0, fun _ => [], fun _ => by norm_num, fun _ => List.not_mem_nil⟩

/-- Memory full of zeroes that nothing was written to. -/
def printfStart : PrintfState := ⟨⟨fun _ => 0, ∅⟩, ⟨fun _ => 0, ∅⟩, 0⟩

/-- The format `a`, with two bytes of room. -/
theorem printf_overflows_letter :
    ¬Contained 2 (Prog.after (kSnprintfVaarg 1 2 (stringAt ['a']) zeroArgs) printfStart).output ∧
      ∀ j ∈ (Prog.after (kSnprintfVaarg 1 2 (stringAt ['a']) zeroArgs) printfStart).output.written,
        j = -1 ∨ 0 ≤ j ∧ j < 2 :=
  printf_overflows (by norm_num) (by norm_num) rfl (Prog.run_after (by decide))

/-- For `a`, the byte in front of `output` is written. -/
theorem letter_not_contained : ∃ s',
    (kSnprintfVaarg 1 2 (stringAt ['a']) zeroArgs).run printfStart = .ok ((), s') ∧
    ¬Contained 2 s'.output := by
  refine ⟨_, Prog.run_after (by decide), fun h => ?_⟩
  exact absurd (h.inside (-1) (by decide)).1 (by norm_num)

/-! ## Rendering -/

/-- A piece of a format of literals and the four directives. -/
def Piece.Printable : Piece → Prop
  | .literal c => c ≠ 0 ∧ c ≠ ascii '%'
  | .directive c => Converts c

/-- What a piece is for. -/
def Piece.rendered (va : VaList) (ap : ℕ) : Piece → List Byte
  | .literal c => [c]
  | .directive c =>
      if c = ascii 'd' then signedNumeral (toLong (va.word ap))
      else if c = ascii 'u' then numeral 10 (va.word ap)
      else if c = ascii 'x' then numeral 16 (va.word ap)
      else va.string (va.word ap)

/-- What a format says, from the argument `ap` on. -/
def rendering (va : VaList) : (ap : ℕ) → List Piece → List Byte
  | _, [] => []
  | ap, p :: ps => p.rendered va ap ++ rendering va (ap + p.args) ps

/-- Every argument of a `%u` is below 2³¹. -/
def SmallUnsigned (va : VaList) : (ap : ℕ) → List Piece → Prop
  | _, [] => True
  | ap, p :: ps =>
      (p = .directive (ascii 'u') → va.word ap < 2 ^ 31) ∧ SmallUnsigned va (ap + p.args) ps

lemma Piece.Printable.proper {p : Piece} (hp : p.Printable) : p.Proper := by
  cases p with
  | literal c => exact hp
  | directive c =>
      rintro rfl
      exact absurd (show Converts 0 from hp) (by decide)

lemma signedNumeral_of_nonneg {d : ℤ} (hd : 0 ≤ d) : signedNumeral d = numeral 10 d.toNat := by
  rw [signedNumeral, if_neg (by omega)]
  congr 1
  omega

/-- A piece is printed as it should be, unless it is a `%u` with a large argument. -/
lemma Piece.printed_eq_rendered {p : Piece} (hp : p.Printable)
    (hsmall : p = .directive (ascii 'u') → va.word ap < 2 ^ 31) :
    p.printed va ap = p.rendered va ap := by
  cases p with
  | literal c => rfl
  | directive c =>
      rw [Piece.printed, if_pos (show Converts c from hp), Piece.rendered, printedArg]
      rcases hp with rfl | rfl | rfl | rfl
      · rfl
      · have hlt := hsmall rfl
        have hlong : toLong (va.word ap) = va.word ap := by
          rw [toLong, if_pos hlt]
        rw [hlong, signedNumeral_of_nonneg (Int.natCast_nonneg _), Int.toNat_natCast]
        rfl
      · rfl
      · rfl

/-- A `%u` with a large argument is printed with a sign. -/
lemma printed_sign (hlarge : 2 ^ 31 ≤ va.word ap) : ∃ t,
    (Piece.directive (ascii 'u')).printed va ap = ascii '-' :: t := by
  have hneg : toLong (va.word ap) < 0 := by
    have hlt := va.word_lt ap
    unfold toLong
    split_ifs
    · omega
    · omega
  refine ⟨numeral 10 (toLong (va.word ap)).natAbs, ?_⟩
  show signedNumeral (toLong (va.word ap)) = _
  rw [signedNumeral, if_pos hneg]

/-- A numeral does not begin with a sign. -/
lemma numeral_no_sign (m : ℕ) : ∃ c t, numeral 10 m = c :: t ∧ c ≠ ascii '-' := by
  rcases hm : numeral 10 m with _ | ⟨c, t⟩
  · rw [numeral, List.map_eq_nil_iff, List.reverse_eq_nil_iff] at hm
    exact absurd hm (digitsOf_ne_nil 10 m)
  · refine ⟨c, t, rfl, ?_⟩
    rcases (numeral_isNumeral (show 2 ≤ 10 by norm_num) (by norm_num) m).digits c
      (by rw [hm]; exact List.mem_cons_self) with ⟨r, hr, rfl⟩
    exact digitByte_ne_minus r (by omega)

lemma printedText_of_small {ps : List Piece} (hps : ∀ p ∈ ps, p.Printable) :
    ∀ {ap : ℕ}, SmallUnsigned va ap ps → printedText va ap ps = rendering va ap ps := by
  induction ps with
  | nil => exact fun _ => rfl
  | cons p ps ih =>
      rintro ap ⟨hp, hsmall⟩
      rw [printedText, rendering, Piece.printed_eq_rendered (hps p List.mem_cons_self) hp,
        ih (fun q hq => hps q (List.mem_cons_of_mem p hq)) hsmall]

/-- Two texts that agree as far as both go. -/
def Agree (t₁ t₂ : List Byte) : Prop := ∀ i (h₁ : i < t₁.length) (h₂ : i < t₂.length), t₁[i] = t₂[i]

lemma Agree.tail {t t₁ t₂ : List Byte} (h : Agree (t ++ t₁) (t ++ t₂)) : Agree t₁ t₂ := by
  intro i h₁ h₂
  have hi := h (t.length + i) (by rw [List.length_append]; omega)
    (by rw [List.length_append]; omega)
  rw [List.getElem_append_right (Nat.le_add_right _ _),
    List.getElem_append_right (Nat.le_add_right _ _)] at hi
  simpa using hi

/-- The first `%u` with a large argument makes a difference. -/
lemma small_of_agree {ps : List Piece} (hps : ∀ p ∈ ps, p.Printable) :
    ∀ {ap : ℕ}, Agree (printedText va ap ps) (rendering va ap ps) → SmallUnsigned va ap ps := by
  induction ps with
  | nil => exact fun _ => trivial
  | cons p ps ih =>
      intro ap hagree
      have hsmall : p = .directive (ascii 'u') → va.word ap < 2 ^ 31 := by
        rintro rfl
        by_contra hlarge
        rcases printed_sign (Nat.not_lt.mp hlarge) with ⟨t, ht⟩
        rcases numeral_no_sign (va.word ap) with ⟨c, t', ht', hc⟩
        have hrendered : (Piece.directive (ascii 'u')).rendered va ap = c :: t' := by
          rw [← ht']
          rfl
        rw [printedText, rendering, ht, hrendered] at hagree
        exact hc (hagree 0 (by simp) (by simp)).symm
      rw [printedText, rendering, Piece.printed_eq_rendered (hps p List.mem_cons_self) hsmall]
        at hagree
      exact ⟨hsmall, ih (fun q hq => hps q (List.mem_cons_of_mem p hq)) hagree.tail⟩

/-- What `k_snprintf_vaarg` does with a format that is a list of pieces. -/
lemma kSnprintfVaarg_pieces (maxlen : ℤ) (va : VaList) {ps : List Piece}
    (hps : ∀ p ∈ ps, p.Proper) (hat : TextAt fmt 0 (formatOf ps ++ [0])) (s : PrintfState) (n : ℕ) :
    ∃ s', (kSnprintfVaarg (ps.length + n) maxlen fmt va).run s = .ok ((), s') ∧
      (∀ m, s.furthest ≤ m → (formatOf ps).length ≤ m → s'.furthest ≤ m) ∧
      (maxlen < 2 ^ 31 → ∀ i (h : i < (printedText va 0 ps).length), (i : ℤ) + 1 < maxlen →
        s'.output.byte i = (printedText va 0 ps)[i]) ∧
      ((printedText va 0 ps).length < maxlen →
        s'.output.byte (printedText va 0 ps).length = 0) := by
  rw [textAt_append, Nat.zero_add] at hat
  have h0 : fmt (formatOf ps).length = 0 := hat.2 0 Nat.one_pos
  rcases formatLoop_pieces maxlen va hps 0 0 0 s hat.1 with ⟨s₁, hdone⟩
  have hbyte : ∀ i (h : i < (printedText va 0 ps).length), (i : ℤ) + 1 < maxlen →
      maxlen < 2 ^ 31 → s₁.output.byte i = (printedText va 0 ps)[i] := by
    intro i h hi hmax
    have hprinted := (hdone.printed (by push_cast; omega) hmax).bytes i h (by push_cast; omega)
    rwa [Nat.cast_zero, Int.zero_add] at hprinted
  rcases hdone.runs with ⟨hgo, -⟩ | ⟨hlen, out', hout', hstop⟩
  · have hloop := hgo n
    rw [Nat.zero_add, Nat.zero_add, Nat.zero_add, formatLoop_stop h0] at hloop
    refine ⟨_, kSnprintfVaarg_run hloop, fun m hm hlen => ?_, fun hmax i h hi => ?_, fun h => ?_⟩
    · exact max_le (hdone.furthest m hm (by omega)) hlen
    · exact (printfEnd_byte (Int.natCast_nonneg i) (by exact_mod_cast h)).trans
        (hbyte i h hi hmax)
    · exact printfEnd_terminator h
  · rw [Nat.zero_add] at hlen
    refine ⟨_, kSnprintfVaarg_run (hstop n), fun m hm hlen => ?_, fun hmax i h hi => ?_,
      fun h => ?_⟩
    · exact hdone.furthest m hm (by omega)
    · exact (printfEnd_byte (Int.natCast_nonneg i) (by omega)).trans (hbyte i h hi hmax)
    · omega

lemma formatOf_length (ps : List Piece) : ps.length ≤ (formatOf ps).length := by
  induction ps with
  | nil => exact le_rfl
  | cons p ps ih =>
      have hpos := p.bytes_length_pos
      rw [formatOf_cons, List.length_append, List.length_cons]
      omega

/-- **`output` is what the format says** exactly when every argument of a `%u` is below 2³¹. -/
theorem printf_rendering_iff {ps : List Piece} (hps : ∀ p ∈ ps, p.Printable)
    (hat : TextAt fmt 0 (formatOf ps ++ [0])) (hlen : (rendering va 0 ps).length < maxlen)
    (hmax : maxlen < 2 ^ 31) :
    (∃ s', (kSnprintf (formatOf ps).length maxlen fmt va).run s = .ok ((), s') ∧
      s'.output.Holds 0 (rendering va 0 ps ++ [0])) ↔ SmallUnsigned va 0 ps := by
  rcases kSnprintfVaarg_pieces maxlen va (fun p hp => (hps p hp).proper) hat s
    ((formatOf ps).length - ps.length) with ⟨s', hrun, -, hbytes, hnul⟩
  rw [Nat.add_sub_cancel' (formatOf_length ps)] at hrun
  constructor
  · rintro ⟨s'', hrun', hholds⟩
    have heq : s' = s'' := (Prod.mk.inj (Except.ok.inj (hrun.symm.trans hrun'))).2
    refine small_of_agree hps fun i h₁ h₂ => ?_
    have hbyte := hholds i (by rw [List.length_append]; omega)
    rw [Int.zero_add, List.getElem_append_left h₂, ← heq] at hbyte
    rw [← hbyte, hbytes hmax i h₁ (by omega)]
  · intro hsmall
    rw [← printedText_of_small hps hsmall] at hlen ⊢
    refine ⟨s', hrun, fun i hi => ?_⟩
    rw [Int.zero_add]
    by_cases hlt : i < (printedText va 0 ps).length
    · rw [hbytes hmax i hlt (by omega), List.getElem_append_left hlt]
    · obtain rfl : i = (printedText va 0 ps).length := by
        rw [List.length_append, List.length_singleton] at hi
        omega
      rw [hnul hlen, List.getElem_append_right le_rfl]
      simp

/-- The arguments -5, a string, 7 and 255. -/
def fourArgs : VaList where
  word i := [2 ^ 32 - 5, 100, 7, 255].getD i 0
  string a := if a = 100 then [ascii 'a', ascii 'b'] else []
  word_lt i := by
    rcases i with _ | _ | _ | _ | i <;> simp
  string_ne a := by
    split_ifs
    · decide
    · exact List.not_mem_nil

/-- The pieces of `x=%d %s %u%x`. -/
def fourPieces : List Piece :=
  [.literal (ascii 'x'), .literal (ascii '='), .directive (ascii 'd'), .literal (ascii ' '),
    .directive (ascii 's'), .literal (ascii ' '), .directive (ascii 'u'), .directive (ascii 'x')]

lemma fourPieces_printable : ∀ p ∈ fourPieces, p.Printable := by
  simp only [fourPieces, List.mem_cons, List.not_mem_nil, or_false, forall_eq_or_imp, forall_eq,
    Piece.Printable]
  decide

lemma fourPieces_text :
    TextAt (stringAt ['x', '=', '%', 'd', ' ', '%', 's', ' ', '%', 'u', '%', 'x']) 0
      (formatOf fourPieces ++ [0]) := by
  show ∀ j (h : j < 13), _
  decide

/-- All four directives: `x=-5 ab 7ff`. -/
theorem printf_rendering_four : ∃ s',
    (kSnprintf 12 20 (stringAt ['x', '=', '%', 'd', ' ', '%', 's', ' ', '%', 'u', '%', 'x'])
      fourArgs).run printfStart = .ok ((), s') ∧
    s'.output.Holds 0
      (['x', '=', '-', '5', ' ', 'a', 'b', ' ', '7', 'f', 'f'].map ascii ++ [0]) := by
  have hsmall : SmallUnsigned fourArgs 0 fourPieces := by
    simp only [SmallUnsigned, fourPieces]
    decide
  have htext : rendering fourArgs 0 fourPieces
      = ['x', '=', '-', '5', ' ', 'a', 'b', ' ', '7', 'f', 'f'].map ascii := by decide
  rw [← htext]
  exact (printf_rendering_iff fourPieces_printable fourPieces_text (by decide) (by norm_num)).mpr
    hsmall

/-- One argument: the word `w`. -/
def oneArg (w : ℕ) (hw : w < 2 ^ 32) : VaList :=
  ⟨fun _ => w, fun _ => [], fun _ => hw, fun _ => List.not_mem_nil⟩

/-- The pieces of `%u`. -/
def unsignedPieces : List Piece := [.directive (ascii 'u')]

/-- `%u` with the largest `unsigned` prints `-1`. -/
theorem largest_unsigned_misprinted :
    ¬∃ s', (kSnprintf 2 20 (stringAt ['%', 'u']) (oneArg (2 ^ 32 - 1) (by norm_num))).run printfStart
        = .ok ((), s') ∧
      s'.output.Holds 0
        (rendering (oneArg (2 ^ 32 - 1) (by norm_num)) 0 unsignedPieces ++ [0]) := by
  rintro ⟨s', hrun, hholds⟩
  have hafter := Prog.run_after (x := kSnprintf 2 20 (stringAt ['%', 'u'])
    (oneArg (2 ^ 32 - 1) (by norm_num))) (s := printfStart) (a := ()) (by decide)
  rw [hrun] at hafter
  have hs := (Prod.mk.inj (Except.ok.inj hafter)).2
  have hfirst := hholds 0 (by decide)
  rw [hs] at hfirst
  exact absurd hfirst (by decide)

/-! ## Parsing -/

/-- The pieces of a format, and whether a `%` with nothing behind it follows them. -/
def parseFormat : List Byte → List Piece × Bool
  | [] => ([], false)
  | [c] => if c = ascii '%' then ([], true) else ([.literal c], false)
  | c :: c' :: t =>
      if c = ascii '%' then (.directive c' :: (parseFormat t).1, (parseFormat t).2)
      else (.literal c :: (parseFormat (c' :: t)).1, (parseFormat (c' :: t)).2)

lemma parseFormat_spec (t : List Byte) (ht : 0 ∉ t) :
    formatOf (parseFormat t).1 ++ (if (parseFormat t).2 then [ascii '%'] else []) = t ∧
      ∀ p ∈ (parseFormat t).1, p.Proper := by
  fun_induction parseFormat t with
  | case1 => simp
  | case2 => simp
  | case3 c hc =>
      refine ⟨rfl, fun p hp => ?_⟩
      rw [List.mem_singleton.mp hp]
      exact ⟨fun h => ht (h ▸ List.mem_cons_self), hc⟩
  | case4 c' t ih =>
      rw [List.mem_cons, List.mem_cons, not_or, not_or] at ht
      rcases ih ht.2.2 with ⟨htext, hproper⟩
      refine ⟨?_, fun p hp => ?_⟩
      · rw [formatOf_cons, List.append_assoc, htext]
        rfl
      · rcases List.mem_cons.mp hp with rfl | hp
        · exact fun h => ht.2.1 h.symm
        · exact hproper p hp
  | case5 c c' t hc ih =>
      rw [List.mem_cons, not_or] at ht
      rcases ih ht.2 with ⟨htext, hproper⟩
      refine ⟨?_, fun p hp => ?_⟩
      · rw [formatOf_cons, List.append_assoc, htext]
        rfl
      · rcases List.mem_cons.mp hp with rfl | hp
        · exact ⟨fun h => ht.1 h.symm, hc⟩
        · exact hproper p hp

/-- The loop at a `%` with nothing behind it: nothing is printed, and the terminator is skipped. -/
lemma formatLoop_percent (hpercent : fmt format = ascii '%') (h0 : fmt (format + 1) = 0)
    (maxlen : ℤ) (va : VaList) (ap out : ℕ) (s : PrintfState) : ∃ s',
      s'.furthest = max s.furthest (format + 1) ∧
      ∀ n, (formatLoop fmt maxlen va (n + 1) format ap out).run s =
        if maxlen ≤ out then .ok (out, s')
        else (formatLoop fmt maxlen va n (format + 2) ap out).run s' := by
  have hne : fmt format ≠ 0 := by
    rw [hpercent]
    decide
  have hpiece : pieceAt fmt format = .directive 0 := by
    rw [pieceAt, if_pos hpercent, h0]
  rcases formatLoop_step maxlen va ap out hne s with ⟨s', -, hfurthest, hstep⟩
  rw [hpiece] at hfurthest hstep
  exact ⟨s', hfurthest, hstep⟩

/-- **A `%` with nothing behind it** takes the loop out of the format, unless `output` is full. -/
lemma percent_escapes {ps : List Piece} {n : ℕ} (hps : ∀ p ∈ ps, p.Proper)
    (hat : TextAt fmt 0 (formatOf ps ++ [ascii '%', 0]))
    (hroom : ((printedText va 0 ps).length : ℤ) < maxlen) (hn : (formatOf ps).length < n)
    {s' : PrintfState} (hrun : (kSnprintfVaarg n maxlen fmt va).run s = .ok ((), s')) :
    (formatOf ps).length + 2 ≤ s'.furthest := by
  rw [textAt_append, Nat.zero_add] at hat
  rcases kSnprintfVaarg_inv hrun with ⟨out, s₂, hloop, rfl⟩
  rcases formatLoop_pieces maxlen va hps 0 0 0 s hat.1 with ⟨s₁, hdone⟩
  have hlen := formatOf_length ps
  have hchar : fmt (formatOf ps).length = ascii '%' := hat.2 0 Nat.two_pos
  rcases formatLoop_percent hchar (hat.2 1 Nat.one_lt_two) maxlen va
    (ps.map Piece.args).sum (printedText va 0 ps).length s₁ with ⟨s₃, -, hpercent⟩
  rcases hdone.runs with ⟨hgo, -⟩ | ⟨hfull, -⟩
  · have hsplit : n = ps.length + (n - ps.length - 1 + 1) := by omega
    rw [hsplit, hgo, Nat.zero_add, Nat.zero_add, Nat.zero_add, hpercent, if_neg (by omega)] at hloop
    show _ ≤ s₂.furthest
    exact formatLoop_furthest hloop
  · push_cast at hfull
    omega

/-- When `output` is full in front of it, a `%` with nothing behind it does no harm. -/
lemma percent_harmless {ps : List Piece} {n : ℕ} (hps : ∀ p ∈ ps, p.Proper)
    (hat : TextAt fmt 0 (formatOf ps ++ [ascii '%', 0]))
    (hfull : maxlen ≤ (printedText va 0 ps).length) (hn : (formatOf ps).length < n)
    (hs : s.furthest = 0) : ∃ s', (kSnprintfVaarg n maxlen fmt va).run s = .ok ((), s') ∧
      s'.furthest ≤ (formatOf ps).length + 1 := by
  rw [textAt_append, Nat.zero_add] at hat
  rcases formatLoop_pieces maxlen va hps 0 0 0 s hat.1 with ⟨s₁, hdone⟩
  have hlen := formatOf_length ps
  have hfurthest := hdone.furthest (formatOf ps).length (by omega) (by omega)
  rcases hdone.runs with ⟨hgo, hnil⟩ | ⟨-, out', -, hstop⟩
  · -- there is no piece, and no room either
    have hfull' : maxlen ≤ (0 + (printedText va 0 ps).length : ℕ) := by
      rw [Nat.zero_add]
      exact hfull
    have hchar : fmt (formatOf ps).length = ascii '%' := hat.2 0 Nat.two_pos
    rcases formatLoop_percent hchar (hat.2 1 Nat.one_lt_two) maxlen va
      (0 + (ps.map Piece.args).sum) (0 + (printedText va 0 ps).length) s₁ with ⟨s₃, hs₃, hpercent⟩
    have hloop := hgo (n - ps.length - 1 + 1)
    have hsplit : ps.length + (n - ps.length - 1 + 1) = n := by omega
    rw [hsplit, Nat.zero_add (formatOf ps).length, hpercent, if_pos hfull'] at hloop
    exact ⟨_, kSnprintfVaarg_run hloop, hs₃.trans_le (max_le (by omega) le_rfl)⟩
  · have hloop := hstop (n - ps.length)
    rw [Nat.add_sub_cancel' (by omega)] at hloop
    exact ⟨_, kSnprintfVaarg_run hloop, Nat.le_succ_of_le hfurthest⟩

/-- **The loop stays in the format** exactly when no `%` with nothing behind it ends the format, or
what comes before that `%` fills `output`. -/
theorem printf_parsing_iff {t : List Byte} (ht : 0 ∉ t) (hat : TextAt fmt 0 (t ++ [0]))
    (hs : s.furthest = 0) :
    (∃ s', (kSnprintfVaarg t.length maxlen fmt va).run s = .ok ((), s') ∧ s'.furthest ≤ t.length) ↔
      ((parseFormat t).2 = true → maxlen ≤ (printedText va 0 (parseFormat t).1).length) := by
  rcases parseFormat_spec t ht with ⟨htext, hps⟩
  rcases hlone : (parseFormat t).2 with _ | _
  · -- all of the format is pieces
    rw [hlone, if_neg (by decide), List.append_nil] at htext
    rw [← htext] at hat
    rcases kSnprintfVaarg_pieces maxlen va hps hat s (t.length - (parseFormat t).1.length) with
      ⟨s', hrun, hfurthest, -⟩
    have hlen := formatOf_length (parseFormat t).1
    rw [htext] at hlen hfurthest
    rw [Nat.add_sub_cancel' hlen] at hrun
    exact ⟨fun _ h => absurd h (by decide),
      fun _ => ⟨s', hrun, hfurthest t.length (by omega) le_rfl⟩⟩
  · rw [hlone, if_pos rfl] at htext
    rw [← htext, List.append_assoc] at hat
    have hlen : t.length = (formatOf (parseFormat t).1).length + 1 := by
      rw [← congrArg List.length htext, List.length_append]
      rfl
    refine ⟨fun ⟨s', hrun, hfurthest⟩ _ => ?_, fun h => ?_⟩
    · by_contra hroom
      have hescape := percent_escapes hps hat (by omega) (by omega) hrun
      omega
    · rw [hlen]
      exact percent_harmless hps hat (h rfl) (Nat.lt_succ_self _) hs

lemma percent_text : TextAt (stringAt ['a', '%']) 0 ([ascii 'a', ascii '%'] ++ [0]) := by
  show ∀ j (h : j < 3), _
  decide

/-- The format `a%`: with one byte of room the `a` fills it, with three the loop leaves the
format. -/
theorem printf_parsing_percent :
    (∃ s', (kSnprintfVaarg 2 1 (stringAt ['a', '%']) zeroArgs).run printfStart = .ok ((), s') ∧
      s'.furthest ≤ 2) ∧
    ¬∃ s', (kSnprintfVaarg 2 3 (stringAt ['a', '%']) zeroArgs).run printfStart = .ok ((), s') ∧
      s'.furthest ≤ 2 := by
  constructor
  · exact (printf_parsing_iff (t := [ascii 'a', ascii '%']) (by decide) percent_text rfl).mpr
      (by decide)
  · intro h
    have hfull := (printf_parsing_iff (t := [ascii 'a', ascii '%']) (by decide) percent_text rfl).mp
      h (by decide)
    exact absurd hfull (by decide)

/-- For `%`, the loop looks behind the terminator. -/
theorem percent_looks_behind : ∃ s',
    (kSnprintfVaarg 1 2 (stringAt ['%']) zeroArgs).run printfStart = .ok ((), s') ∧
    1 < s'.furthest :=
  ⟨_, Prog.run_after (by decide), by decide⟩

end Pieces

end Akaris
