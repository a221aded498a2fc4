import Akaris.Text.Defs

/-!
# The boot console

`bootvideo.c` prints on a grid of 25 rows and 80 columns; when the cursor leaves the last row, all
rows move up by one.  A store outside of the grid is a fault.

**The lines.**  `breakText` breaks a text after each newline and after each 80th column.  The
console shows the last 25 lines of what was printed: `ShowsLines`, where the line that the cursor is in
is kept apart from those before it.

**One character.**  `bootvideoPutc_run` is the step of the simulation between the list of lines and
the grid.  Its hard case is a new line, where the rows may have to move: `Lined` is what holds
between the end of a line and the scrolling.

**The result** is `console_shows_tail`.
-/

namespace Akaris

/-! ## The code -/

/-- The cursor, and the cells of the screen, row by row. -/
structure Console where
  curX : ℕ
  curY : ℕ
  vmem : ℕ → BitVec 16

/-- Why the console code does not come back. -/
inductive VideoFault
  /-- A cell outside of the screen was written. -/
  | outside
  deriving DecidableEq, Repr

/-- Console code. -/
abbrev VideoProg (α : Type) := Prog VideoFault Console α

/-- `vmem[i] = x`. -/
def vmemStore (i : ℕ) (x : BitVec 16) : VideoProg Unit := do
  Prog.assert (i < 25 * 80) .outside
  Prog.update fun s => { s with vmem := Function.update s.vmem i x }

/-- `memset(vmem + i, 0, n * 2)`. -/
def vmemClear : (n i : ℕ) → VideoProg Unit
  | 0, _ => return ()
  | n + 1, i => do
      vmemStore i 0
      vmemClear n (i + 1)

/-- The loop of `bootvideo_scroll`, `n` iterations from `curpos` on. -/
def scrollCopy : (n curpos : ℕ) → VideoProg Unit
  | 0, _ => return ()
  | n + 1, curpos => do
      let x ← Prog.gets fun s => s.vmem (curpos + 80)
      vmemStore curpos x
      scrollCopy n (curpos + 1)

/-- `bootvideo_scroll`. -/
def bootvideoScroll : VideoProg Unit := do
  if (← Prog.gets Console.curX) ≥ 80 then
    Prog.update fun s => { s with curX := 0, curY := (s.curY + 1) % 2 ^ 16 }
  if (← Prog.gets Console.curY) ≥ 25 then
    scrollCopy (24 * 80) 0
    vmemClear 80 (80 * 24)
    Prog.update fun s => { s with curY := 24 }

/-- What a character is stored as: `char` is signed, and the colour is in the high byte. -/
def videoCell (c : Byte) : BitVec 16 := c.signExtend 16 + 7 <<< 8

/-- `bootvideo_putc`. -/
def bootvideoPutc (c : Byte) : VideoProg Unit := do
  if c = ascii '\n' then
    Prog.update fun s => { s with curX := 0, curY := (s.curY + 1) % 2 ^ 16 }
  else
    let i ← Prog.gets fun s => s.curY * 80 + s.curX
    vmemStore i (videoCell c)
    Prog.update fun s => { s with curX := (s.curX + 1) % 2 ^ 16 }
  bootvideoScroll

/-- `bootvideo_cls`. -/
def bootvideoCls : VideoProg Unit := do
  vmemClear (25 * 80) 0
  Prog.update fun s => { s with curX := 0, curY := 0 }

/-- The loop of `bootvideo_puts`, after `n` characters: how many there were. -/
def putsLoop : (s : List Byte) → (n : ℕ) → VideoProg ℕ
  | [], n => return n
  | c :: s, n => do
      if c = 0 then return n
      else
        bootvideoPutc c
        putsLoop s (n + 1)

/-- `bootvideo_puts`. -/
def bootvideoPuts (s : List Byte) : VideoProg ℕ := putsLoop s 0

/-- Several calls of `bootvideo_puts`. -/
def putsAll : List (List Byte) → VideoProg Unit
  | [] => return ()
  | s :: ss => do
      let _ ← bootvideoPuts s
      putsAll ss

/-- Several calls of `bootvideo_putc`. -/
def putcAll : List Byte → VideoProg Unit
  | [] => return ()
  | c :: t => do
      bootvideoPutc c
      putcAll t

/-! ## The lines -/

/-- A text broken at each newline and after each 80th column, `cur` being what is in the first line
already. -/
def breakText : (cur : List Byte) → List Byte → List (List Byte)
  | cur, [] => [cur]
  | cur, c :: t =>
      if c = ascii '\n' then cur :: breakText [] t
      else if cur.length + 1 = 80 then (cur ++ [c]) :: breakText [] t
      else breakText (cur ++ [c]) t

/-- The character that the line `i` has at the column `x`, zero where it has none. -/
def charOf (lines : List (List Byte)) (i x : ℕ) : Byte := ((lines[i]?.getD [])[x]?).getD 0

/-- The 25 rows of the screen are the lines from `base` on. -/
def RowsShow (lines : List (List Byte)) (base : ℕ) (vmem : ℕ → BitVec 16) : Prop :=
  ∀ r < 25, ∀ x < 80, (vmem (r * 80 + x)).setWidth 8 = charOf lines (base + r) x

/-- The screen shows the end of the lines `done` and of the line `cur`, which the cursor is in. -/
structure ShowsLines (done : List (List Byte)) (cur : List Byte) (s : Console) : Prop where
  rows : RowsShow (done ++ [cur]) (done.length - 24) s.vmem
  curX : s.curX = cur.length
  curY : s.curY + (done.length - 24) = done.length
  room : cur.length < 80

/-- The last of the lines is complete, and the screen has not moved yet. -/
structure Lined (done : List (List Byte)) (s : Console) : Prop where
  rows : RowsShow done (done.length - 25) s.vmem
  curX : s.curX = 0
  curY : s.curY + (done.length - 25) = done.length

section Lines

variable {done : List (List Byte)} {cur : List Byte} {base i x : ℕ} {c : Byte}
  {vmem : ℕ → BitVec 16}

lemma charOf_append_singleton (done : List (List Byte)) (cur : List Byte) (i x : ℕ) :
    charOf (done ++ [cur]) i x =
      if i = done.length then cur[x]?.getD 0 else charOf done i x := by
  rw [charOf, charOf]
  rcases Nat.lt_trichotomy i done.length with h | h | h
  · rw [if_neg (by omega), List.getElem?_append_left h]
  · rw [if_pos h, h, List.getElem?_concat_length, Option.getD_some]
  · have hpast : (done ++ [cur]).length ≤ i := by
      rw [List.length_append, List.length_singleton]
      omega
    rw [if_neg (by omega), List.getElem?_eq_none hpast, List.getElem?_eq_none h.le]

/-- There is nothing behind the last line. -/
lemma charOf_past (h : done.length ≤ i) : charOf done i x = 0 := by
  rw [charOf, List.getElem?_eq_none h]
  rfl

/-- An empty line looks like no line. -/
lemma RowsShow.newline (h : RowsShow done base vmem) : RowsShow (done ++ [[]]) base vmem := by
  intro r hr x hx
  rw [h r hr x hx, charOf_append_singleton]
  split_ifs with hlast
  · rw [charOf_past hlast.ge]
    rfl
  · rfl

lemma videoCell_low : (videoCell c).setWidth 8 = c := by
  revert c
  decide

/-- A character more in the line that the cursor is in. -/
lemma RowsShow.store (h : RowsShow (done ++ [cur]) base vmem) {y : ℕ} (hy : y + base = done.length)
    (hroom : cur.length < 80) (c : Byte) :
    RowsShow (done ++ [cur ++ [c]]) base
      (Function.update vmem (y * 80 + cur.length) (videoCell c)) := by
  intro r hr x hx
  have hrow := h r hr x hx
  rw [charOf_append_singleton] at hrow ⊢
  by_cases heq : r * 80 + x = y * 80 + cur.length
  · have hxy : x = cur.length ∧ base + r = done.length := by omega
    rw [heq, Function.update_self, if_pos hxy.2, hxy.1, List.getElem?_concat_length,
      videoCell_low]
    rfl
  · rw [Function.update_of_ne heq, hrow]
    split_ifs with hlast
    · have hne : x ≠ cur.length := by
        rintro rfl
        exact heq (by omega)
      rcases Nat.lt_or_gt_of_ne hne with hlt | hgt
      · rw [List.getElem?_append_left hlt]
      · rw [List.getElem?_eq_none hgt.le,
          List.getElem?_eq_none (by rw [List.length_append]; simpa using hgt)]
    · rfl

/-- The rows have moved up, and the last one is blank. -/
lemma RowsShow.scroll (h : RowsShow done base vmem) (hend : done.length ≤ base + 25)
    {vmem' : ℕ → BitVec 16} (hmoved : ∀ i < 24 * 80, vmem' i = vmem (i + 80))
    (hblank : ∀ i, 24 * 80 ≤ i → i < 25 * 80 → vmem' i = 0) : RowsShow done (base + 1) vmem' := by
  intro r hr x hx
  by_cases hlast : r = 24
  · rw [hblank _ (by omega) (by omega), charOf_past (by omega)]
    rfl
  · have hrow := h (r + 1) (by omega) x hx
    rw [hmoved _ (by omega)]
    rw [Nat.add_one_mul, Nat.add_right_comm] at hrow
    rw [hrow]
    congr 1
    omega

end Lines

section Steps

variable {s : Console} {done : List (List Byte)} {cur : List Byte}

/-! ## The loops -/

lemma vmemStore_run {i : ℕ} (hi : i < 25 * 80) (x : BitVec 16) (s : Console) :
    (vmemStore i x).run s = .ok ((), { s with vmem := Function.update s.vmem i x }) := by
  rw [vmemStore, Prog.run_bind_assert hi, Prog.run_update]

lemma vmemClear_run (n : ℕ) : ∀ {i : ℕ} (s : Console), i + n ≤ 25 * 80 →
    ∃ vmem, (vmemClear n i).run s = .ok ((), { s with vmem := vmem }) ∧
      ∀ j, vmem j = if i ≤ j ∧ j < i + n then 0 else s.vmem j := by
  induction n with
  | zero => exact fun s _ => ⟨s.vmem, rfl, fun j => by rw [if_neg (by omega)]⟩
  | succ n ih =>
      intro i s hi
      rcases ih { s with vmem := Function.update s.vmem i 0 } (show i + 1 + n ≤ _ by omega) with
        ⟨vmem, hrun, hvmem⟩
      refine ⟨vmem, ?_, fun j => ?_⟩
      · rw [vmemClear, Prog.run_bind_ok (vmemStore_run (by omega) 0 s), hrun]
      · rw [hvmem]
        by_cases hj : j = i
        · rw [if_neg (by omega), if_pos (by omega), hj]
          exact Function.update_self i 0 s.vmem
        · have hrest : Function.update s.vmem i 0 j = s.vmem j := Function.update_of_ne hj _ _
          split_ifs
          · rfl
          · omega
          · omega
          · exact hrest

/-- The loop reads each cell before it is overwritten. -/
lemma scrollCopy_run (n : ℕ) : ∀ {i : ℕ} (s : Console), i + n ≤ 25 * 80 →
    ∃ vmem, (scrollCopy n i).run s = .ok ((), { s with vmem := vmem }) ∧
      ∀ j, vmem j = if i ≤ j ∧ j < i + n then s.vmem (j + 80) else s.vmem j := by
  induction n with
  | zero => exact fun s _ => ⟨s.vmem, rfl, fun j => by rw [if_neg (by omega)]⟩
  | succ n ih =>
      intro i s hi
      rcases ih { s with vmem := Function.update s.vmem i (s.vmem (i + 80)) }
        (show i + 1 + n ≤ _ by omega) with ⟨vmem, hrun, hvmem⟩
      refine ⟨vmem, ?_, fun j => ?_⟩
      · rw [scrollCopy, Prog.run_bind_gets, Prog.run_bind_ok (vmemStore_run (by omega) _ s), hrun]
      · rw [hvmem]
        by_cases hj : j = i
        · rw [if_neg (by omega), if_pos (by omega), hj]
          exact Function.update_self i _ s.vmem
        · have hrest : Function.update s.vmem i (s.vmem (i + 80)) j = s.vmem j :=
            Function.update_of_ne hj _ _
          have hbehind : i + 1 ≤ j → Function.update s.vmem i (s.vmem (i + 80)) (j + 80)
              = s.vmem (j + 80) := fun h => Function.update_of_ne (by omega) _ _
          split_ifs with h₁ h₂ h₂
          · exact hbehind h₁.1
          · omega
          · omega
          · exact hrest

/-! ## A character -/

/-- The wrap is a new line. -/
lemma bootvideoScroll_wrap (h : 80 ≤ s.curX) : bootvideoScroll.run s
    = bootvideoScroll.run { s with curX := 0, curY := (s.curY + 1) % 2 ^ 16 } := by
  rw [bootvideoScroll, Prog.run_bind_gets, if_pos h]
  rfl

/-- A cursor on the screen stays where it is. -/
lemma bootvideoScroll_stay (hx : s.curX < 80) (hy : s.curY < 25) :
    bootvideoScroll.run s = .ok ((), s) := by
  rw [bootvideoScroll, Prog.run_bind_gets, if_neg (Nat.not_le.mpr hx)]
  show (Prog.gets Console.curY >>= _).run s = _
  rw [Prog.run_bind_gets, if_neg (Nat.not_le.mpr hy), Prog.run_pure]

/-- Without a wrap, the rows move up if the cursor has left the last one. -/
lemma bootvideoScroll_lined (hlined : Lined done s) :
    ∃ s', bootvideoScroll.run s = .ok ((), s') ∧ ShowsLines done [] s' := by
  have hx : ¬s.curX ≥ 80 := by
    rw [hlined.curX]
    norm_num
  have hy := hlined.curY
  by_cases hscroll : s.curY ≥ 25
  · rcases scrollCopy_run (24 * 80) (i := 0) s (by norm_num) with ⟨vmem₁, hrun₁, hvmem₁⟩
    rcases vmemClear_run 80 (i := 80 * 24) { s with vmem := vmem₁ } (by norm_num) with
      ⟨vmem₂, hrun₂, hvmem₂⟩
    refine ⟨{ s with vmem := vmem₂, curY := 24 }, ?_, ?_, hlined.curX, ?_, by norm_num⟩
    · rw [bootvideoScroll, Prog.run_bind_gets, if_neg hx]
      show (Prog.gets Console.curY >>= _).run s = _
      rw [Prog.run_bind_gets, if_pos hscroll, Prog.run_bind_ok hrun₁, Prog.run_bind_ok hrun₂]
      rfl
    · have hbase : done.length - 24 = done.length - 25 + 1 := by omega
      rw [hbase]
      refine RowsShow.newline (hlined.rows.scroll (by omega) (fun i hi => ?_) (fun i hi hi' => ?_))
      · have hcopy := hvmem₁ i
        rw [if_pos (by omega)] at hcopy
        show vmem₂ i = _
        rw [hvmem₂, if_neg (by omega)]
        exact hcopy
      · show vmem₂ i = _
        rw [hvmem₂, if_pos (by omega)]
    · show 24 + (done.length - 24) = done.length
      omega
  · have hbase : done.length - 24 = done.length - 25 := by omega
    exact ⟨s, bootvideoScroll_stay (by omega) (by omega), by rw [hbase]; exact hlined.rows.newline,
      hlined.curX, by rw [hbase]; exact hy, by norm_num⟩

/-- A character that is not a newline is stored. -/
lemma bootvideoPutc_store {c : Byte} (hnl : c ≠ ascii '\n') (h : ShowsLines done cur s) :
    (bootvideoPutc c).run s = bootvideoScroll.run { s with
      curX := cur.length + 1
      vmem := Function.update s.vmem (s.curY * 80 + cur.length) (videoCell c) } := by
  have hroom := h.room
  have hi : s.curY * 80 + cur.length < 25 * 80 := by
    have hy := h.curY
    omega
  have hcol : (cur.length + 1) % 2 ^ 16 = cur.length + 1 := by omega
  rw [bootvideoPutc, if_neg hnl, Prog.run_bind_gets, h.curX,
    Prog.run_bind_ok (vmemStore_run hi _ s), Prog.run_bind_update, h.curX, hcol]

/-- The line that the cursor is in gets complete. -/
lemma RowsShow.lined {vmem : ℕ → BitVec 16} {y : ℕ}
    (hrows : RowsShow (done ++ [cur]) (done.length - 24) vmem)
    (hy : y + (done.length - 24) = done.length) :
    Lined (done ++ [cur]) { curX := 0, curY := (y + 1) % 2 ^ 16, vmem := vmem } := by
  have hlength : (done ++ [cur]).length = done.length + 1 := by
    rw [List.length_append, List.length_singleton]
  refine ⟨?_, rfl, ?_⟩
  · rw [hlength]
    exact hrows
  · rw [hlength]
    show (y + 1) % 2 ^ 16 + (done.length + 1 - 25) = done.length + 1
    omega

/-- **One character** on the console and in the lines. -/
lemma bootvideoPutc_run (c : Byte) (h : ShowsLines done cur s) :
    ∃ s' done' cur', (bootvideoPutc c).run s = .ok ((), s') ∧ ShowsLines done' cur' s' ∧
      ∀ t, done ++ breakText cur (c :: t) = done' ++ breakText cur' t := by
  have hroom := h.room
  have hy := h.curY
  by_cases hnl : c = ascii '\n'
  · rcases bootvideoScroll_lined (h.rows.lined h.curY) with ⟨s', hrun, hshows⟩
    refine ⟨s', done ++ [cur], [], ?_, hshows, fun t => ?_⟩
    · rw [bootvideoPutc, if_pos hnl, Prog.run_bind_update, hrun]
    · rw [breakText, if_pos hnl, List.append_assoc, List.singleton_append]
  · have hlength : (cur ++ [c]).length = cur.length + 1 := by
      rw [List.length_append, List.length_singleton]
    rw [bootvideoPutc_store hnl h]
    have hrows := h.rows.store h.curY hroom c
    by_cases hwrap : cur.length + 1 = 80
    · -- the line is full
      rw [bootvideoScroll_wrap hwrap.ge]
      rcases bootvideoScroll_lined (hrows.lined h.curY) with ⟨s', hrun, hshows⟩
      refine ⟨s', done ++ [cur ++ [c]], [], hrun, hshows, fun t => ?_⟩
      rw [breakText, if_neg hnl, if_pos hwrap, List.append_assoc, List.singleton_append]
    · have hshows : ShowsLines done (cur ++ [c]) { s with
          curX := cur.length + 1
          vmem := Function.update s.vmem (s.curY * 80 + cur.length) (videoCell c) } :=
        ⟨hrows, hlength.symm, h.curY, by omega⟩
      refine ⟨_, done, cur ++ [c], ?_, hshows, fun t => ?_⟩
      · exact bootvideoScroll_stay (show cur.length + 1 < 80 by omega) (show s.curY < 25 by omega)
      · rw [breakText, if_neg hnl, if_neg hwrap]

/-! ## A text -/

/-- **A text** on the console and in the lines. -/
lemma putcAll_run : ∀ (t : List Byte) {done : List (List Byte)} {cur : List Byte} {s : Console},
    ShowsLines done cur s → ∃ s' done' cur', (putcAll t).run s = .ok ((), s') ∧ ShowsLines done' cur' s' ∧
      ∀ q, done ++ breakText cur (t ++ q) = done' ++ breakText cur' q := by
  intro t
  induction t with
  | nil => exact fun {done cur s} h => ⟨s, done, cur, rfl, h, fun _ => rfl⟩
  | cons c t ih =>
      intro done cur s h
      rcases bootvideoPutc_run c h with ⟨s₁, done₁, cur₁, hrun₁, hshows₁, hlines₁⟩
      rcases ih hshows₁ with ⟨s', done', cur', hrun, hshows, hlines⟩
      refine ⟨s', done', cur', ?_, hshows, fun q => ?_⟩
      · rw [putcAll, Prog.run_bind_ok hrun₁, hrun]
      · rw [List.cons_append, hlines₁, hlines]

/-- The characters of a string, up to its terminator. -/
def cString (s : List Byte) : List Byte := s.takeWhile (· ≠ 0)

/-- `bootvideo_puts` puts the characters one by one, and returns their number. -/
lemma putsLoop_eq (t : List Byte) (n : ℕ) :
    putsLoop t n = (putcAll (cString t) >>= fun _ => return n + (cString t).length) := by
  induction t generalizing n with
  | nil => rfl
  | cons c t ih =>
      rw [putsLoop, cString, List.takeWhile_cons]
      by_cases h0 : c = 0
      · rw [if_pos h0, if_neg (by simpa using h0)]
        rfl
      · rw [if_neg h0, if_pos (by simpa using h0), putcAll, bind_assoc, ih, List.length_cons,
          Nat.add_right_comm]
        rfl

lemma putcAll_append (t q : List Byte) :
    putcAll (t ++ q) = (putcAll t >>= fun _ => putcAll q) := by
  induction t with
  | nil => rfl
  | cons c t ih => rw [List.cons_append, putcAll, ih, putcAll, bind_assoc]

lemma putsAll_eq (ss : List (List Byte)) : putsAll ss = putcAll (ss.flatMap cString) := by
  induction ss with
  | nil => rfl
  | cons t ss ih =>
      rw [putsAll, bootvideoPuts, putsLoop_eq, List.flatMap_cons, putcAll_append, ← ih, bind_assoc]
      rfl

/-- After `bootvideo_cls`, the console shows the empty line. -/
lemma bootvideoCls_run (s : Console) :
    ∃ s', bootvideoCls.run s = .ok ((), s') ∧ ShowsLines [] [] s' := by
  rcases vmemClear_run (25 * 80) (i := 0) s le_rfl with ⟨vmem, hrun, hvmem⟩
  refine ⟨{ s with vmem := vmem, curX := 0, curY := 0 }, ?_, fun r hr x hx => ?_, rfl, rfl,
    by norm_num⟩
  · rw [bootvideoCls, Prog.run_bind_ok hrun, Prog.run_update]
  · show (vmem (r * 80 + x)).setWidth 8 = _
    rw [hvmem, if_pos (by omega), charOf_append_singleton]
    split_ifs
    · rfl
    · rfl

/-- What the console shows of the lines of a text, the last of which has the cursor: the last 25
lines, the one with the cursor in the row of the cursor. -/
structure ShowsTail (lines : List (List Byte)) (s : Console) : Prop where
  curX : s.curX < 80
  curY : s.curY < 25
  column : lines.getLast?.map List.length = some s.curX
  row : s.curY + 1 + (lines.length - 25) = lines.length
  cells : ∀ r < 25, ∀ x < 80,
    (s.vmem (r * 80 + x)).setWidth 8 = charOf lines (lines.length - 25 + r) x

lemma ShowsLines.tail (h : ShowsLines done cur s) : ShowsTail (done ++ breakText cur []) s := by
  have hy := h.curY
  have hroom := h.room
  have hlength : (done ++ breakText cur []).length = done.length + 1 := by
    rw [breakText, List.length_append, List.length_singleton]
  refine ⟨by rw [h.curX]; exact hroom, by omega, ?_, by omega, fun r hr x hx => ?_⟩
  · rw [breakText, List.getLast?_concat, Option.map_some, h.curX]
  · rw [hlength]
    exact h.rows r hr x hx

/-- **The console shows the tail of what was printed.**  After `bootvideo_cls`, any calls of
`bootvideo_puts` return without a store outside of the screen, and the screen shows the last lines
of the text; it did so after each character too. -/
theorem console_shows_tail (ss : List (List Byte)) (s : Console) : ∃ s',
    (bootvideoCls >>= fun _ => putsAll ss).run s = .ok ((), s') ∧
    ShowsTail (breakText [] (ss.flatMap cString)) s' ∧
    ∀ t q, ss.flatMap cString = t ++ q → ∃ s₁,
      (bootvideoCls >>= fun _ => putcAll t).run s = .ok ((), s₁) ∧
      ShowsTail (breakText [] t) s₁ ∧ (putcAll q).run s₁ = .ok ((), s') := by
  rcases bootvideoCls_run s with ⟨s₀, hcls, h₀⟩
  rcases putcAll_run (ss.flatMap cString) h₀ with ⟨s', done', cur', hrun, hshows, hlines⟩
  refine ⟨s', ?_, ?_, fun t q htq => ?_⟩
  · rw [Prog.run_bind_ok hcls, putsAll_eq, hrun]
  · have htail := hshows.tail
    rw [← hlines [], List.append_nil] at htail
    exact htail
  · rcases putcAll_run t h₀ with ⟨s₁, done₁, cur₁, hrun₁, hshows₁, hlines₁⟩
    refine ⟨s₁, ?_, ?_, ?_⟩
    · rw [Prog.run_bind_ok hcls, hrun₁]
    · have htail := hshows₁.tail
      rw [← hlines₁ [], List.append_nil] at htail
      exact htail
    · rw [htq, putcAll_append, Prog.run_bind_ok hrun₁] at hrun
      exact hrun

end Steps

end Akaris
