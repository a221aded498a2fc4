import Akaris.Lib.Prog
import Akaris.Lib.Word

/-!
# Strings

The part of `lib/strfuncs.c` that the boot code prints and searches with: `strncmp`, `strstr`,
`itoa`, `strlcpy` of `lib/strlcpy.c`, and `k_snprintf_vaarg`.

A C string is the list of its characters, without the terminator, which stands behind them: to look
further than that is `overrun`.  A `Buffer` is memory that gets written, around the place that a
pointer points to; it remembers which bytes were written.  The format of `k_snprintf_vaarg` is
memory too, as the loop does look behind its terminator.
-/

namespace Akaris

/-- A `char`. -/
abbrev Byte := BitVec 8

/-- The code of a character. -/
def ascii (c : Char) : Byte := BitVec.ofNat 8 c.toNat

/-! ## Searching -/

/-- Why code on C strings does not come back. -/
inductive StringFault
  /-- A character behind the terminator was read. -/
  | overrun
  /-- The loop goes on for longer than the string. -/
  | stillRunning
  deriving DecidableEq, Repr

/-- Read the character at `i` of a C string. -/
def charAt (s : List Byte) (i : ℕ) : Except StringFault Byte :=
  if h : i < s.length then .ok s[i]
  else if i = s.length then .ok 0
  else .error .overrun

/-- The loop of `strlen`, for at most `n` characters from `tmp` on. -/
def strlenLoop (str : List Byte) : (n tmp : ℕ) → Except StringFault ℕ
  | 0, _ => .error .stillRunning
  | n + 1, tmp => do
      if (← charAt str tmp) = 0 then return tmp
      else strlenLoop str n (tmp + 1)

/-- `strlen`. -/
def strlen (str : List Byte) : Except StringFault ℕ := strlenLoop str (str.length + 1) 0

/-- `strncmp`, from `i` and `j` on.  `char` is signed. -/
def strncmp (s1 s2 : List Byte) : (n i j : ℕ) → Except StringFault ℤ
  | 0, _, _ => return 0
  | n + 1, i, j => do
      if (← charAt s1 i) = 0 then
        if (← charAt s2 j) = 0 then return 0
        else return -1
      else if (← charAt s2 j) = 0 then return 1
      else if (← charAt s1 i).toInt > (← charAt s2 j).toInt then return 1
      else if (← charAt s1 i).toInt < (← charAt s2 j).toInt then return -1
      else strncmp s1 s2 n (i + 1) (j + 1)

/-- The loop of `strstr`, for at most `n` characters from `haystack` on: where the needle was
found. -/
def strstrLoop (haystack needle : List Byte) : (n i : ℕ) → Except StringFault (Option ℕ)
  | 0, _ => .error .stillRunning
  | n + 1, i => do
      let c ← charAt haystack i
      if c = 0 then return none
      else if c = (← charAt needle 0) then
        if (← strncmp haystack needle (← strlen needle) i 0) = 0 then return some i
        else strstrLoop haystack needle n (i + 1)
      else strstrLoop haystack needle n (i + 1)

/-- `strstr`. -/
def strstr (haystack needle : List Byte) : Except StringFault (Option ℕ) :=
  strstrLoop haystack needle (haystack.length + 1) 0

/-! ## Buffers -/

/-- Memory around the place that a pointer points to, and the bytes of it that were written. -/
structure Buffer where
  byte : ℤ → Byte
  written : Finset ℤ

/-- Store a byte. -/
def Buffer.store (b : Buffer) (i : ℤ) (x : Byte) : Buffer where
  byte := Function.update b.byte i x
  written := insert i b.written

/-- The loop of `strlcpy`, with `n` bytes of room: the last one is for the terminator. -/
def strlcpyLoop (b : Buffer) (d : ℤ) : (src : List Byte) → (n : ℕ) → Buffer
  | _, 0 => b
  | _, 1 => b.store d 0
  | [], _ + 2 => b.store d 0
  | c :: src, n + 2 => strlcpyLoop (b.store d c) (d + 1) src (n + 1)

/-- `strlcpy`. -/
def strlcpy (b : Buffer) (dst : ℤ) (src : List Byte) (siz : ℕ) : ℕ × Buffer :=
  (src.length, strlcpyLoop b dst src siz)

/-! ## Numbers -/

/-- The character of a digit. -/
def digitByte (remainder : ℕ) : Byte :=
  if remainder < 10 then BitVec.ofNat 8 (remainder + 48) else BitVec.ofNat 8 (remainder + 97 - 10)

/-- The loop of `itoa` that stores the digits, the last one first, and where it ends.  `ud` has 32
bits, so `n` does not run out. -/
def itoaDigits (divisor : ℕ) : (n ud : ℕ) → (p : ℤ) → Buffer → ℤ × Buffer
  | 0, _, p, b => (p, b)
  | n + 1, ud, p, b =>
      let b := b.store p (digitByte (ud % divisor))
      if ud / divisor ≠ 0 then itoaDigits divisor n (ud / divisor) (p + 1) b
      else (p + 1, b)

/-- The loop of `itoa` that reverses the digits, at most `n` times. -/
def itoaReverse : (n : ℕ) → (p1 p2 : ℤ) → Buffer → Buffer
  | 0, _, _, b => b
  | n + 1, p1, p2, b =>
      if p1 < p2 then
        itoaReverse n (p1 + 1) (p2 - 1) ((b.store p1 (b.byte p2)).store p2 (b.byte p1))
      else b

/-- `itoa`, on the buffer that `buf` points to. -/
def itoa (base : Char) (d : ℤ) (b : Buffer) : Buffer :=
  let negative := base = 'd' ∧ d < 0
  let b := if negative then b.store 0 (ascii '-') else b
  let buf : ℤ := if negative then 1 else 0
  let ud := if negative then ofLong (-d) else ofLong d
  let divisor := if ¬negative ∧ base = 'x' then 16 else 10
  let (p, b) := itoaDigits divisor 32 ud buf b
  let b := b.store p 0
  itoaReverse 32 buf (p - 1) b

/-- The string in the 20 bytes of a buffer. -/
def Buffer.string (b : Buffer) : List Byte :=
  ((List.range 20).map fun i : ℕ => b.byte i).takeWhile (· ≠ 0)

/-! ## Formatted output -/

/-- A `va_list` of the i686: the words on the stack, and the strings that are at addresses. -/
structure VaList where
  word : ℕ → ℕ
  string : ℕ → List Byte
  word_lt : ∀ i, word i < 2 ^ 32
  string_ne : ∀ a, 0 ∉ string a

/-- The memory of `k_snprintf_vaarg`: around `output`, its local `buf`, and the furthest character of
the format that it looked at. -/
structure PrintfState where
  output : Buffer
  buf : Buffer
  furthest : ℕ

/-- Formatting code, which stops when its loop runs for longer than it is given. -/
abbrev PrintfProg (α : Type) := Prog StringFault PrintfState α

/-- Look at a character of the format. -/
def examine (format : ℕ → Byte) (i : ℕ) : PrintfProg Byte := do
  Prog.update fun s => { s with furthest := max s.furthest i }
  return format i

/-- `out += strlcpy(out, src, maxlen - (out - output))`. -/
def emit (maxlen : ℤ) (out : ℕ) (src : List Byte) : PrintfProg ℕ := do
  let r ← Prog.gets fun s => strlcpy s.output out src (ofLong (maxlen - out))
  Prog.update fun s => { s with output := r.2 }
  return out + r.1

/-- Fill `buf` with `itoa`. -/
def itoaBuf (base : Char) (d : ℤ) : PrintfProg (List Byte) := do
  Prog.update fun s => { s with buf := itoa base d s.buf }
  Prog.gets fun s => s.buf.string

/-- The `switch` over the character behind `%`: the arguments that were used up, and `out`. -/
def directive (c : Byte) (maxlen : ℤ) (va : VaList) (ap out : ℕ) : PrintfProg (ℕ × ℕ) := do
  if c = ascii 'd' then
    let src ← itoaBuf 'd' (toLong (va.word ap))
    return (ap + 1, ← emit maxlen out src)
  else if c = ascii 'u' then
    let src ← itoaBuf 'd' (toLong (va.word ap))
    return (ap + 1, ← emit maxlen out src)
  else if c = ascii 'x' then
    let src ← itoaBuf 'x' (toLong (va.word ap))
    return (ap + 1, ← emit maxlen out src)
  else if c = ascii 's' then
    return (ap + 1, ← emit maxlen out (va.string (va.word ap)))
  else return (ap, out)

/-- One iteration of the loop of `k_snprintf_vaarg`, for the character `c` of the format: `format`,
`ap` and `out` after it. -/
def formatStep (fmt : ℕ → Byte) (maxlen : ℤ) (va : VaList) (c : Byte) (format ap out : ℕ) :
    PrintfProg (ℕ × ℕ × ℕ) := do
  if c = ascii '%' then
    let c ← examine fmt (format + 1)
    let (ap, out) ← directive c maxlen va ap out
    return (format + 2, ap, out)
  else
    Prog.update fun s => { s with output := s.output.store out c }
    return (format + 1, ap, out + 1)

/-- The loop of `k_snprintf_vaarg`, `n` iterations at most: where `out` is in the end. -/
def formatLoop (fmt : ℕ → Byte) (maxlen : ℤ) (va : VaList) :
    (n format ap out : ℕ) → PrintfProg ℕ
  | 0, format, _, out => do
      if (← examine fmt format) = 0 then return out
      else Prog.fault .stillRunning
  | n + 1, format, ap, out => do
      let c ← examine fmt format
      if c = 0 then return out
      else
        let (format, ap, out) ← formatStep fmt maxlen va c format ap out
        if (out : ℤ) ≥ maxlen then return out
        else formatLoop fmt maxlen va n format ap out

/-- `k_snprintf_vaarg`, with `n` iterations of its loop at most. -/
def kSnprintfVaarg (n : ℕ) (maxlen : ℤ) (fmt : ℕ → Byte) (va : VaList) : PrintfProg Unit := do
  let out ← formatLoop fmt maxlen va n 0 0 0
  if (out : ℤ) < maxlen then
    Prog.update fun s => { s with output := s.output.store out 0 }
  Prog.update fun s => { s with output := s.output.store (-1) 0 }

/-- `k_snprintf`, whose variable arguments are `va`. -/
def kSnprintf (n : ℕ) (maxlen : ℤ) (fmt : ℕ → Byte) (va : VaList) : PrintfProg Unit :=
  kSnprintfVaarg n maxlen fmt va

end Akaris
