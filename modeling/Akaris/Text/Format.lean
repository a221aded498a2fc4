import Akaris.Text.Itoa

/-!
# Formatted output

`k_snprintf_vaarg` goes through its format piece by piece: a literal character, or `%` and the
character behind it.  `Piece.printed` is the text that a piece adds, and `formatStep_run` says that
an iteration of the loop adds it.  `formatLoop_pieces` is the induction over the pieces: either all
of them are printed, or `output` is full before.
-/

namespace Akaris

/-- A piece of a format. -/
inductive Piece
  | literal (c : Byte)
  | directive (c : Byte)
  deriving DecidableEq, Repr

/-- The characters of a piece. -/
def Piece.bytes : Piece → List Byte
  | .literal c => [c]
  | .directive c => [ascii '%', c]

/-- The characters behind `%` that print an argument. -/
def Converts (c : Byte) : Prop := c = ascii 'd' ∨ c = ascii 'u' ∨ c = ascii 'x' ∨ c = ascii 's'

instance (c : Byte) : Decidable (Converts c) :=
  inferInstanceAs (Decidable (c = ascii 'd' ∨ c = ascii 'u' ∨ c = ascii 'x' ∨ c = ascii 's'))

/-- How many arguments a piece uses up. -/
def Piece.args : Piece → ℕ
  | .literal _ => 0
  | .directive c => if Converts c then 1 else 0

/-- What a directive prints for its argument.  `%u` goes through the signed argument of `itoa`. -/
def printedArg (va : VaList) (ap : ℕ) (c : Byte) : List Byte :=
  if c = ascii 'x' then numeral 16 (va.word ap)
  else if c = ascii 's' then va.string (va.word ap)
  else signedNumeral (toLong (va.word ap))

/-- The text that a piece adds. -/
def Piece.printed (va : VaList) (ap : ℕ) : Piece → List Byte
  | .literal c => [c]
  | .directive c => if Converts c then printedArg va ap c else []

/-- What a piece does to `output`. -/
def Piece.output (maxlen : ℤ) (va : VaList) (ap out : ℕ) (b : Buffer) : Piece → Buffer
  | .literal c => b.store out c
  | .directive c =>
      if Converts c then strlcpyLoop b out (printedArg va ap c) (ofLong (maxlen - out)) else b

/-- The piece that the format has at `i`. -/
def pieceAt (fmt : ℕ → Byte) (i : ℕ) : Piece :=
  if fmt i = ascii '%' then .directive (fmt (i + 1)) else .literal (fmt i)

section Steps

variable {b b' : Buffer} {s : PrintfState} {fmt : ℕ → Byte} {maxlen : ℤ} {va : VaList}
  {format ap out n : ℕ} {c : Byte}

/-! ## One piece -/

/-- A string that was stored with its terminator is the string of the buffer. -/
lemma Stored.string {t : List Byte} (h : Stored b b' 0 (t ++ [0])) (hlen : t.length < 20)
    (ht : 0 ∉ t) : b'.string = t := by
  have hsplit : (List.range 20).map (fun i : ℕ => b'.byte i)
      = t ++ 0 :: (List.range' (t.length + 1) (19 - t.length)).map (fun i : ℕ => b'.byte i) := by
    have hfirst : (List.range' 0 t.length).map (fun i : ℕ => b'.byte i) = t := by
      refine List.ext_getElem (by simp) fun i hi hi' => ?_
      have hbyte := h.bytes i (by simp; omega)
      rw [Int.zero_add, List.getElem_append_left hi'] at hbyte
      simpa using hbyte
    have hnul := h.bytes t.length (by simp)
    rw [Int.zero_add, List.getElem_append_right le_rfl] at hnul
    have hrange : List.range 20 = List.range' 0 t.length ++ t.length ::
        List.range' (t.length + 1) (19 - t.length) := by
      have happend := List.range'_append_1 (s := 0) (m := t.length) (n := 19 - t.length + 1)
      rw [Nat.zero_add, show t.length + (19 - t.length + 1) = 20 by omega] at happend
      rw [← List.range'_succ, List.range_eq_range', happend]
    rw [hrange, List.map_append, hfirst, List.map_cons, hnul]
    simp
  rw [Buffer.string, hsplit, List.takeWhile_append_of_pos]
  · simp
  · intro x hx
    simpa using fun h0 : x = 0 => ht (h0 ▸ hx)

lemma numeral_ne_zero {base : ℕ} (hbase : 2 ≤ base) (h16 : base ≤ 16) (m : ℕ) :
    0 ∉ numeral base m := by
  intro h0
  rcases (numeral_isNumeral hbase h16 m).digits 0 h0 with ⟨r, hr, heq⟩
  exact digitByte_ne_zero r (by omega) heq.symm

lemma signedNumeral_ne_zero (d : ℤ) : 0 ∉ signedNumeral d := by
  have hnumeral := numeral_ne_zero (show 2 ≤ 10 by norm_num) (by norm_num) d.natAbs
  rw [signedNumeral]
  split_ifs
  · rw [List.mem_cons, not_or]
    exact ⟨by decide, hnumeral⟩
  · exact hnumeral

lemma toLong_range {w : ℕ} (hw : w < 2 ^ 32) : -2 ^ 31 ≤ toLong w ∧ toLong w < 2 ^ 31 := by
  unfold toLong
  split_ifs
  · omega
  · omega

lemma ofLong_toLong {w : ℕ} (hw : w < 2 ^ 32) : ofLong (toLong w) = w := by
  unfold toLong ofLong
  split_ifs
  · omega
  · omega

/-- `itoa` for a decimal directive. -/
lemma itoaBuf_decimal (s : PrintfState) (va : VaList) (ap : ℕ) : ∃ buf,
    (itoaBuf 'd' (toLong (va.word ap))).run s
      = .ok (signedNumeral (toLong (va.word ap)), { s with buf := buf }) := by
  have hrange := toLong_range (va.word_lt ap)
  have hstored := itoa_decimal hrange.1 hrange.2 s.buf
  have hlen := signedNumeral_length_le hrange.1 hrange.2
  refine ⟨itoa 'd' (toLong (va.word ap)) s.buf, ?_⟩
  rw [itoaBuf, Prog.run_bind_update, Prog.run_gets,
    hstored.string (by omega) (signedNumeral_ne_zero _)]

lemma itoaBuf_hex (s : PrintfState) (va : VaList) (ap : ℕ) : ∃ buf,
    (itoaBuf 'x' (toLong (va.word ap))).run s
      = .ok (numeral 16 (va.word ap), { s with buf := buf }) := by
  have hstored := itoa_hex (toLong (va.word ap)) s.buf
  rw [ofLong_toLong (va.word_lt ap)] at hstored
  have hlen : (numeral 16 (va.word ap)).length ≤ 8 :=
    numeral_length_le (by norm_num) (by norm_num) (by have h := va.word_lt ap; omega)
  refine ⟨itoa 'x' (toLong (va.word ap)) s.buf, ?_⟩
  rw [itoaBuf, Prog.run_bind_update, Prog.run_gets,
    hstored.string (by omega) (numeral_ne_zero (by norm_num) (by norm_num) _)]

lemma emit_run (s : PrintfState) (src : List Byte) : (emit maxlen out src).run s =
    .ok (out + src.length, { s with
      output := strlcpyLoop s.output out src (ofLong (maxlen - out)) }) := rfl

/-- **The `switch`.** -/
lemma directive_run (maxlen : ℤ) (va : VaList) (ap out : ℕ) (s : PrintfState) (c : Byte) : ∃ buf,
    (directive c maxlen va ap out).run s =
      .ok ((ap + (Piece.directive c).args, out + ((Piece.directive c).printed va ap).length),
        { s with output := (Piece.directive c).output maxlen va ap out s.output, buf := buf }) := by
  rcases itoaBuf_decimal s va ap with ⟨bufd, hd⟩
  rcases itoaBuf_hex s va ap with ⟨bufx, hx⟩
  have hdx : ascii 'd' ≠ ascii 'x' := by decide
  have hds : ascii 'd' ≠ ascii 's' := by decide
  have hux : ascii 'u' ≠ ascii 'x' := by decide
  have hus : ascii 'u' ≠ ascii 's' := by decide
  have hsx : ascii 's' ≠ ascii 'x' := by decide
  simp only [Piece.args, Piece.printed, Piece.output]
  rw [directive]
  by_cases h1 : c = ascii 'd'
  · have hconv : Converts c := Or.inl h1
    rw [if_pos h1, if_pos hconv, if_pos hconv, if_pos hconv, h1, printedArg, if_neg hdx, if_neg hds]
    refine ⟨bufd, ?_⟩
    rw [Prog.run_bind_ok hd, Prog.run_bind_ok (emit_run _ _), Prog.run_pure]
  · by_cases h2 : c = ascii 'u'
    · have hconv : Converts c := Or.inr (Or.inl h2)
      rw [if_neg h1, if_pos h2, if_pos hconv, if_pos hconv, if_pos hconv, h2, printedArg,
        if_neg hux, if_neg hus]
      refine ⟨bufd, ?_⟩
      rw [Prog.run_bind_ok hd, Prog.run_bind_ok (emit_run _ _), Prog.run_pure]
    · by_cases h3 : c = ascii 'x'
      · have hconv : Converts c := Or.inr (Or.inr (Or.inl h3))
        rw [if_neg h1, if_neg h2, if_pos h3, if_pos hconv, if_pos hconv, if_pos hconv, h3,
          printedArg, if_pos rfl]
        refine ⟨bufx, ?_⟩
        rw [Prog.run_bind_ok hx, Prog.run_bind_ok (emit_run _ _), Prog.run_pure]
      · by_cases h4 : c = ascii 's'
        · have hconv : Converts c := Or.inr (Or.inr (Or.inr h4))
          rw [if_neg h1, if_neg h2, if_neg h3, if_pos h4, if_pos hconv, if_pos hconv,
            if_pos hconv, h4, printedArg, if_neg hsx, if_pos rfl]
          refine ⟨s.buf, ?_⟩
          rw [Prog.run_bind_ok (emit_run _ _), Prog.run_pure]
        · have hconv : ¬Converts c := by
            rintro (h | h | h | h)
            · exact h1 h
            · exact h2 h
            · exact h3 h
            · exact h4 h
          rw [if_neg h1, if_neg h2, if_neg h3, if_neg h4, if_neg hconv, if_neg hconv, if_neg hconv]
          exact ⟨s.buf, rfl⟩

/-- **One iteration** adds the piece that it is at. -/
lemma formatStep_run (fmt : ℕ → Byte) (maxlen : ℤ) (va : VaList) (format ap out : ℕ)
    (s : PrintfState) : ∃ s',
    (formatStep fmt maxlen va (fmt format) format ap out).run s =
      .ok ((format + (pieceAt fmt format).bytes.length, ap + (pieceAt fmt format).args,
        out + ((pieceAt fmt format).printed va ap).length), s') ∧
    s'.output = (pieceAt fmt format).output maxlen va ap out s.output ∧
    (s'.furthest = s.furthest ∧ (pieceAt fmt format).bytes.length = 1 ∨
      s'.furthest = max s.furthest (format + 1) ∧ (pieceAt fmt format).bytes.length = 2) := by
  rw [formatStep, pieceAt]
  by_cases hpercent : fmt format = ascii '%'
  · rw [if_pos hpercent, if_pos hpercent]
    rcases directive_run maxlen va ap out
      { s with furthest := max s.furthest (format + 1) } (fmt (format + 1)) with ⟨buf, hrun⟩
    have hexamine : (examine fmt (format + 1)).run s
        = .ok (fmt (format + 1), { s with furthest := max s.furthest (format + 1) }) := rfl
    refine ⟨{ s with
      furthest := max s.furthest (format + 1)
      output := (Piece.directive (fmt (format + 1))).output maxlen va ap out s.output
      buf := buf }, ?_, rfl, Or.inr ⟨rfl, rfl⟩⟩
    rw [Prog.run_bind_ok hexamine, Prog.run_bind_ok hrun, Prog.run_pure]
    rfl
  · rw [if_neg hpercent, if_neg hpercent]
    refine ⟨{ s with output := s.output.store out (fmt format) }, rfl, rfl, Or.inl ⟨rfl, rfl⟩⟩

/-- `strlcpy` stores what there is room for, and the terminator. -/
lemma strlcpyLoop_stored (src : List Byte) (d : ℤ) (hn : 0 < n) :
    Stored b (strlcpyLoop b d src n) d (src.take (n - 1) ++ [0]) := by
  induction src generalizing n b d with
  | nil =>
      rw [List.take_nil, List.nil_append]
      rcases n with _ | _ | n
      · omega
      · exact Stored.nil.cons
      · exact Stored.nil.cons
  | cons c src ih =>
      rcases n with _ | _ | n
      · omega
      · exact Stored.nil.cons
      · exact (ih (d + 1) (Nat.succ_pos n)).cons

/-- **What a piece leaves in `output`**: its text as far as there is room, nothing else behind `out`
but a terminator, and everything in front of `out` as it was. -/
lemma Piece.output_spec (p : Piece) (hout : (out : ℤ) < maxlen) (hmax : maxlen < 2 ^ 31) :
    (∀ i (h : i < (p.printed va ap).length), (out + i : ℤ) + 1 < maxlen →
      (p.output maxlen va ap out b).byte (out + i) = (p.printed va ap)[i]) ∧
    (∀ j < (out : ℤ), (p.output maxlen va ap out b).byte j = b.byte j) ∧
    ∀ j ∈ (p.output maxlen va ap out b).written, j ∈ b.written ∨ out ≤ j ∧ j < maxlen := by
  cases p with
  | literal c =>
      have hstored : Stored b (b.store out c) out [c] := Stored.nil.cons
      refine ⟨fun i h _ => hstored.bytes i h, fun j hj => hstored.others j (Or.inl hj),
        fun j hj => ?_⟩
      rcases (hstored.written j).mp hj with h | h
      · exact Or.inl h
      · rw [List.length_singleton] at h
        exact Or.inr (by omega)
  | directive c =>
      simp only [Piece.printed, Piece.output]
      by_cases hconv : Converts c
      · simp only [if_pos hconv]
        have hroom : (ofLong (maxlen - out) : ℤ) = maxlen - out := by
          unfold ofLong
          omega
        have hstored := strlcpyLoop_stored (b := b) (n := ofLong (maxlen - out))
          (printedArg va ap c) out (by omega)
        refine ⟨fun i h hi => ?_, fun j hj => hstored.others j (Or.inl hj), fun j hj => ?_⟩
        · have htake : i < ((printedArg va ap c).take (ofLong (maxlen - out) - 1)).length := by
            rw [List.length_take]
            omega
          rw [hstored.bytes i (by rw [List.length_append]; omega), List.getElem_append_left htake,
            List.getElem_take]
        · rcases (hstored.written j).mp hj with h | h
          · exact Or.inl h
          · rw [List.length_append, List.length_take, List.length_singleton] at h
            push_cast at h
            exact Or.inr (by omega)
      · simp only [if_neg hconv]
        exact ⟨fun i h => absurd h (Nat.not_lt_zero i), fun _ _ => trivial, fun j hj => Or.inl hj⟩

/-! ## The loop -/

lemma formatLoop_stop (h0 : fmt format = 0) (n : ℕ) (s : PrintfState) :
    (formatLoop fmt maxlen va n format ap out).run s
      = .ok (out, { s with furthest := max s.furthest format }) := by
  have hexamine : (examine fmt format).run s
      = .ok (0, { s with furthest := max s.furthest format }) := by
    rw [← h0]
    rfl
  cases n with
  | zero => rw [formatLoop, Prog.run_bind_ok hexamine, if_pos rfl, Prog.run_pure]
  | succ n => rw [formatLoop, Prog.run_bind_ok hexamine, if_pos rfl, Prog.run_pure]

lemma Piece.bytes_length_pos (p : Piece) : 0 < p.bytes.length := by
  cases p with
  | literal c => exact Nat.one_pos
  | directive c => exact Nat.two_pos

/-- **The loop** goes on behind the piece unless `output` is full. -/
lemma formatLoop_step (maxlen : ℤ) (va : VaList) (ap out : ℕ) (hc : fmt format ≠ 0)
    (s : PrintfState) : ∃ s',
    s'.output = (pieceAt fmt format).output maxlen va ap out s.output ∧
    s'.furthest = max s.furthest (format + (pieceAt fmt format).bytes.length - 1) ∧
    ∀ n, (formatLoop fmt maxlen va (n + 1) format ap out).run s =
      if maxlen ≤ (out + ((pieceAt fmt format).printed va ap).length : ℕ) then
        .ok (out + ((pieceAt fmt format).printed va ap).length, s')
      else (formatLoop fmt maxlen va n (format + (pieceAt fmt format).bytes.length)
        (ap + (pieceAt fmt format).args) (out + ((pieceAt fmt format).printed va ap).length)).run
          s' := by
  have hexamine : (examine fmt format).run s
      = .ok (fmt format, { s with furthest := max s.furthest format }) := rfl
  have hpos := (pieceAt fmt format).bytes_length_pos
  rcases formatStep_run fmt maxlen va format ap out
    { s with furthest := max s.furthest format } with ⟨s', hrun, houtput, hfurthest⟩
  refine ⟨s', houtput, ?_, fun n => ?_⟩
  · rcases hfurthest with ⟨h, h1⟩ | ⟨h, h2⟩
    · rw [h, h1, Nat.add_sub_cancel]
    · rw [h, h2]
      show max (max s.furthest format) (format + 1) = max s.furthest (format + 2 - 1)
      omega
  · rw [formatLoop, Prog.run_bind_ok hexamine, if_neg hc, Prog.run_bind_ok hrun]
    simp only [ge_iff_le]
    split_ifs
    · rfl
    · rfl

/-- The rule of the loop: what holds at every iteration gives what holds at the end. -/
lemma formatLoop_rule {I : (format ap out : ℕ) → PrintfState → Prop} {Q : PrintfState → Prop}
    (hstop : ∀ format ap out s, I format ap out s → fmt format = 0 →
      Q { s with furthest := max s.furthest format })
    (hstep : ∀ format ap out s s', I format ap out s → fmt format ≠ 0 →
      s'.output = (pieceAt fmt format).output maxlen va ap out s.output →
      s'.furthest = max s.furthest (format + (pieceAt fmt format).bytes.length - 1) →
      if maxlen ≤ (out + ((pieceAt fmt format).printed va ap).length : ℕ) then Q s'
      else I (format + (pieceAt fmt format).bytes.length) (ap + (pieceAt fmt format).args)
        (out + ((pieceAt fmt format).printed va ap).length) s') :
    ∀ {format ap out : ℕ} {s s' : PrintfState} {r : ℕ}, I format ap out s →
      (formatLoop fmt maxlen va n format ap out).run s = .ok (r, s') → Q s' := by
  induction n with
  | zero =>
      intro format ap out s s' r hI hrun
      by_cases h0 : fmt format = 0
      · rw [formatLoop_stop h0] at hrun
        rw [← (Prod.mk.inj (Except.ok.inj hrun)).2]
        exact hstop format ap out s hI h0
      · have hexamine : (examine fmt format).run s
            = .ok (fmt format, { s with furthest := max s.furthest format }) := rfl
        rw [formatLoop, Prog.run_bind_ok hexamine, if_neg h0] at hrun
        exact absurd hrun (by simp)
  | succ n ih =>
      intro format ap out s s' r hI hrun
      by_cases h0 : fmt format = 0
      · rw [formatLoop_stop h0] at hrun
        rw [← (Prod.mk.inj (Except.ok.inj hrun)).2]
        exact hstop format ap out s hI h0
      · rcases formatLoop_step maxlen va ap out h0 s with
          ⟨s₁, houtput, hfurthest, hrest⟩
        have hnext := hstep format ap out s s₁ hI h0 houtput hfurthest
        rw [hrest] at hrun
        split_ifs at hrun hnext with hfull
        · rw [← (Prod.mk.inj (Except.ok.inj hrun)).2]
          exact hnext
        · exact ih hnext hrun

/-- A loop that returned has looked at where it began. -/
lemma formatLoop_furthest {s' : PrintfState} {r : ℕ}
    (hrun : (formatLoop fmt maxlen va n format ap out).run s = .ok (r, s')) :
    format ≤ s'.furthest := by
  refine formatLoop_rule (I := fun f _ _ t => format ≤ max t.furthest f)
    (Q := fun t => format ≤ t.furthest) (fun f ap out t h _ => h) (fun f ap out t t' h _ _ ht => ?_)
    (le_max_right _ _) hrun
  have hpos := (pieceAt fmt f).bytes_length_pos
  split_ifs
  · rw [ht]
    omega
  · rw [ht]
    omega

end Steps

end Akaris
