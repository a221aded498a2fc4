import Akaris.Lib.BitField
import Akaris.Lib.Prog

/-!
# A 32-bit x86 processor in protected mode

The part of the architecture that the entry and exit code of a kernel is written for: the general
and the segment registers, the stack, descriptor tables, the delivery of an exception through an
interrupt gate, and the return from it.

**Memory and the stack.**  Memory is bytes by linear address, all segments that are used have base
0.  `HoldsAt m a ws` says that the words `ws` lie in memory from `a` on; pushing conses to the list
that the stack pointer points at (`Processor.Stack.push`), popping takes its head.

**Segments.**  A selector is loaded only if the descriptor it selects allows it: `dataFault` for the
data segment registers, `codeFault` and `stackFault` for what `iret` and a gate load.

**Machine code.**  `Instr.exec` runs one instruction and `execAll` a sequence of them.  When a
selector is pushed, the processor may or may not write the upper half of the stack slot; what it
leaves there is the parameter `pad`.

What is left out stops with the fault `unmodelled`: segments that are not flat, tasks, virtual-8086
mode, and privilege levels 1 and 2.  Paging is left out: the stack and the tables are where the
processor finds them.  So is the load of the task register: `esp0` and `ss0` are what it selects.
-/

namespace Akaris

namespace Ia32

/-- The general registers. -/
inductive Reg
  | eax | ecx | edx | ebx | esp | ebp | esi | edi
  deriving DecidableEq, Repr

/-- The data segment registers. -/
inductive Seg
  | es | ds | fs | gs
  deriving DecidableEq, Repr

/-- What stops the processor: an exception of its own, or a feature that is not modelled. -/
inductive Fault
  | invalidTss
  | notPresent
  | stack
  | generalProtection
  | unmodelled
  deriving DecidableEq, Repr

/-! ## Memory -/

/-- Linear memory, by byte. -/
abbrev Memory := BitVec 32 → BitVec 8

namespace Memory

/-- The word at an address. -/
def read (m : Memory) (a : BitVec 32) : BitVec 32 := m (a + 3) ++ m (a + 2) ++ m (a + 1) ++ m a

/-- Store a word. -/
def write (m : Memory) (a x : BitVec 32) : Memory := fun b =>
  if (b - a).toNat < 4 then x.extractLsb' (8 * (b - a).toNat) 8 else m b

lemma write_outside {m : Memory} {a b : BitVec 32} (x : BitVec 32) (h : 4 ≤ (b - a).toNat) :
    m.write a x b = m b := if_neg (Nat.not_lt.mpr h)

/-- The word at an address depends on the four bytes there. -/
lemma read_congr {m m' : Memory} {a : BitVec 32}
    (h : ∀ b : BitVec 32, (b - a).toNat < 4 → m b = m' b) : m.read a = m'.read a := by
  have hbyte : ∀ i : BitVec 32, i.toNat < 4 → m (a + i) = m' (a + i) := fun i hi =>
    h _ (by rwa [add_sub_cancel_left])
  have h0 := h a (by rw [BitVec.sub_self]; decide)
  rw [read, read, hbyte 3 (by decide), hbyte 2 (by decide), hbyte 1 (by decide), h0]

@[simp] lemma read_write_same (m : Memory) (a x : BitVec 32) : (m.write a x).read a = x := by
  have hbyte : ∀ i : BitVec 32, i.toNat < 4 →
      m.write a x (a + i) = x.extractLsb' (8 * i.toNat) 8 := fun i hi => by
    rw [write, add_sub_cancel_left, if_pos hi]
  have h0 : m.write a x a = x.extractLsb' 0 8 := by
    rw [write, BitVec.sub_self, if_pos (by decide)]
    rfl
  rw [read, hbyte 3 (by decide), hbyte 2 (by decide), hbyte 1 (by decide), h0]
  refine BitVec.eq_of_getLsbD_eq fun i hi => ?_
  simp only [BitVec.getLsbD_append, BitVec.getLsbD_extractLsb']
  by_cases h1 : i < 8
  · simp [h1]
  · by_cases h2 : i - 8 < 8
    · simp [h1, h2, show 8 + (i - 8) = i by omega]
    · by_cases h3 : i - 8 - 8 < 8
      · simp [h1, h2, h3, show 16 + (i - 8 - 8) = i by omega]
      · simp [h1, h2, h3, show 24 + (i - 8 - 8 - 8) = i by omega, show i - 8 - 8 - 8 < 8 by omega]

/-- Words that do not overlap. -/
lemma read_write_apart (m : Memory) {a b : BitVec 32} (x : BitVec 32) (h : 4 ≤ (b - a).toNat)
    (h' : 4 ≤ (a - b).toNat) : (m.write a x).read b = m.read b := by
  refine read_congr fun c hc => write_outside x ?_
  bv_omega

/-- The words `ws` lie in memory from `a` on. -/
def HoldsAt (m : Memory) : BitVec 32 → List (BitVec 32) → Prop
  | _, [] => True
  | a, w :: ws => m.read a = w ∧ HoldsAt m (a + 4) ws

/-- A word below the others: they stay as they are. -/
lemma HoldsAt.write_below {m : Memory} {a : BitVec 32} {ws : List (BitVec 32)} (x : BitVec 32)
    (h : HoldsAt m a ws) (hfit : 4 * (ws.length + 1) ≤ 2 ^ 32) :
    HoldsAt (m.write (a - 4) x) a ws := by
  suffices hgen : ∀ (ws : List (BitVec 32)) (k : ℕ), 1 ≤ k → 4 * (ws.length + k) ≤ 2 ^ 32 →
      HoldsAt m (a - 4 + BitVec.ofNat 32 (4 * k)) ws →
      HoldsAt (m.write (a - 4) x) (a - 4 + BitVec.ofNat 32 (4 * k)) ws by
    have h4 : a - 4 + BitVec.ofNat 32 (4 * 1) = a := by
      show a - 4 + 4 = a
      exact sub_add_cancel a 4
    have hone := hgen ws 1 le_rfl hfit
    rw [h4] at hone
    exact hone h
  intro ws
  induction ws with
  | nil => exact fun _ _ _ _ => trivial
  | cons w ws ih =>
      intro k hk hfit ⟨hw, hws⟩
      rw [List.length_cons] at hfit
      have hnext : a - 4 + BitVec.ofNat 32 (4 * k) + 4 = a - 4 + BitVec.ofNat 32 (4 * (k + 1)) := by
        rw [Nat.mul_succ, BitVec.ofNat_add, ← add_assoc]
        rfl
      rw [hnext] at hws
      refine ⟨?_, ?_⟩
      · rw [read_write_apart m x, hw]
        · rw [add_sub_cancel_left, BitVec.toNat_ofNat]
          omega
        · have : (a - 4 - (a - 4 + BitVec.ofNat 32 (4 * k))).toNat = 2 ^ 32 - 4 * k := by
            rw [sub_add_cancel_left, BitVec.toNat_neg, BitVec.toNat_ofNat]
            omega
          omega
      · rw [hnext]
        exact ih (k + 1) (by omega) (by omega) hws

/-- Two memories agree except on the `n` bytes from `a` on. -/
def AgreeOutside (a : BitVec 32) (n : ℕ) (m m' : Memory) : Prop :=
  ∀ b : BitVec 32, n ≤ (b - a).toNat → m b = m' b

end Memory

open Memory

/-! ## Selectors, descriptors and gates -/

namespace Selector

def rpl : Field 16 := ⟨0, 2, by norm_num⟩
def table : Field 16 := ⟨2, 1, by norm_num⟩
def index : Field 16 := ⟨3, 13, by norm_num⟩

/-- A null selector. -/
def IsNull (x : BitVec 16) : Prop := index.get x = 0 ∧ table.get x = 0

instance (x : BitVec 16) : Decidable (IsNull x) := inferInstanceAs (Decidable (_ ∧ _))

end Selector

namespace Descriptor

/-! The fields of a segment descriptor, as the processor reads them. -/

def limitLow : Field 64 := ⟨0, 16, by norm_num⟩
def baseLow : Field 64 := ⟨16, 24, by norm_num⟩
def type : Field 64 := ⟨40, 4, by norm_num⟩
def code : Field 64 := ⟨43, 1, by norm_num⟩
def conforming : Field 64 := ⟨42, 1, by norm_num⟩
def accessible : Field 64 := ⟨41, 1, by norm_num⟩
def system : Field 64 := ⟨44, 1, by norm_num⟩
def dpl : Field 64 := ⟨45, 2, by norm_num⟩
def present : Field 64 := ⟨47, 1, by norm_num⟩
def limitHigh : Field 64 := ⟨48, 4, by norm_num⟩
def granularity : Field 64 := ⟨55, 1, by norm_num⟩
def baseHigh : Field 64 := ⟨56, 8, by norm_num⟩

/-- Where the segment starts. -/
def base (d : BitVec 64) : ℕ := baseLow.get d + 2 ^ 24 * baseHigh.get d

/-- The last offset into the segment. -/
def limit (d : BitVec 64) : ℕ :=
  let n := limitLow.get d + 2 ^ 16 * limitHigh.get d
  if granularity.get d = 1 then 4096 * n + 4095 else n

/-- All of memory. -/
def IsFlat (d : BitVec 64) : Prop := base d = 0 ∧ limit d = 0xFFFFFFFF

/-- A code segment. -/
def IsCode (d : BitVec 64) : Prop := system.get d = 1 ∧ code.get d = 1

/-- A data segment that can be written to. -/
def IsWritable (d : BitVec 64) : Prop := system.get d = 1 ∧ code.get d = 0 ∧ accessible.get d = 1

/-- A segment that a data segment register can hold: data, or code that can be read. -/
def IsReadable (d : BitVec 64) : Prop :=
  system.get d = 1 ∧ (code.get d = 1 → accessible.get d = 1)

/-- A segment whose level guards it: data, or code that does not conform. -/
def Guarded (d : BitVec 64) : Prop := ¬(code.get d = 1 ∧ conforming.get d = 1)

instance (d : BitVec 64) : Decidable (IsFlat d) := inferInstanceAs (Decidable (_ ∧ _))
instance (d : BitVec 64) : Decidable (IsCode d) := inferInstanceAs (Decidable (_ ∧ _))
instance (d : BitVec 64) : Decidable (IsWritable d) := inferInstanceAs (Decidable (_ ∧ _))
instance (d : BitVec 64) : Decidable (IsReadable d) := inferInstanceAs (Decidable (_ ∧ (_ → _)))
instance (d : BitVec 64) : Decidable (Guarded d) := inferInstanceAs (Decidable (¬(_ ∧ _)))

end Descriptor

namespace Gate

/-! The fields of a gate of the interrupt table. -/

def offsetLow : Field 64 := ⟨0, 16, by norm_num⟩
def selector : Field 64 := ⟨16, 16, by norm_num⟩
def type : Field 64 := ⟨40, 5, by norm_num⟩
def dpl : Field 64 := ⟨45, 2, by norm_num⟩
def present : Field 64 := ⟨47, 1, by norm_num⟩
def offsetHigh : Field 64 := ⟨48, 16, by norm_num⟩

/-- Where the gate leads. -/
def offset (g : BitVec 64) : BitVec 32 :=
  BitVec.ofNat 32 (offsetLow.get g + 2 ^ 16 * offsetHigh.get g)

end Gate

section Tables

variable (gdt : List (BitVec 64))

/-- The descriptor that a selector selects; there is no local table. -/
def descriptor (x : BitVec 16) : Option (BitVec 64) :=
  if Selector.table.get x = 0 then gdt[Selector.index.get x]? else none

/-- What loading a data segment register at a privilege level ends in. -/
def dataFault (cpl : ℕ) (x : BitVec 16) : Option Fault :=
  if Selector.IsNull x then none
  else match descriptor gdt x with
    | none => some .generalProtection
    | some d =>
        if ¬Descriptor.IsReadable d then some .generalProtection
        else if Descriptor.Guarded d ∧ Descriptor.dpl.get d < max cpl (Selector.rpl.get x) then
          some .generalProtection
        else if Descriptor.present.get d = 0 then some .notPresent
        else if ¬Descriptor.IsFlat d then some .unmodelled
        else none

/-- What returning to a code segment from a privilege level ends in. -/
def codeFault (cpl : ℕ) (x : BitVec 16) : Option Fault :=
  if Selector.IsNull x then some .generalProtection
  else match descriptor gdt x with
    | none => some .generalProtection
    | some d =>
        if ¬Descriptor.IsCode d ∨ Selector.rpl.get x < cpl then some .generalProtection
        else if Descriptor.Guarded d ∧ Descriptor.dpl.get d ≠ Selector.rpl.get x then
          some .generalProtection
        else if Selector.rpl.get x < Descriptor.dpl.get d then some .generalProtection
        else if Descriptor.present.get d = 0 then some .notPresent
        else if ¬Descriptor.IsFlat d then some .unmodelled
        else none

/-- What loading a stack segment for a privilege level ends in; `e` is the fault when the selector
itself is not good. -/
def stackFault (e : Fault) (level : ℕ) (x : BitVec 16) : Option Fault :=
  if Selector.IsNull x then some e
  else match descriptor gdt x with
    | none => some e
    | some d =>
        if Selector.rpl.get x ≠ level ∨ Descriptor.dpl.get d ≠ level ∨ ¬Descriptor.IsWritable d then
          some e
        else if Descriptor.present.get d = 0 then some .stack
        else if ¬Descriptor.IsFlat d then some .unmodelled
        else none

/-- What entering the code segment of a gate ends in. -/
def gateFault (cpl : ℕ) (x : BitVec 16) : Option Fault :=
  if Selector.IsNull x then some .generalProtection
  else match descriptor gdt x with
    | none => some .generalProtection
    | some d =>
        if ¬Descriptor.IsCode d ∨ cpl < Descriptor.dpl.get d then some .generalProtection
        else if Descriptor.present.get d = 0 then some .notPresent
        else if ¬Descriptor.IsFlat d then some .unmodelled
        else none

/-- What a far jump to a code segment ends in. -/
def jumpFault (cpl : ℕ) (x : BitVec 16) : Option Fault :=
  if Selector.IsNull x then some .generalProtection
  else match descriptor gdt x with
    | none => some .generalProtection
    | some d =>
        if ¬Descriptor.IsCode d ∨ cpl < Descriptor.dpl.get d then some .generalProtection
        else if Descriptor.Guarded d ∧ (cpl < Selector.rpl.get x ∨ Descriptor.dpl.get d ≠ cpl) then
          some .generalProtection
        else if Descriptor.present.get d = 0 then some .notPresent
        else if ¬Descriptor.IsFlat d then some .unmodelled
        else none

/-- The privilege level that code of a segment runs at when it is entered through a gate. -/
def gateLevel (cpl : ℕ) (x : BitVec 16) : ℕ :=
  match descriptor gdt x with
  | none => cpl
  | some d => if Descriptor.Guarded d then Descriptor.dpl.get d else cpl

/-- What becomes of a data segment register on the return to an outer level: it is cleared when that
level may not use it. -/
def outerSeg (level : ℕ) (x : BitVec 16) : BitVec 16 :=
  if Selector.IsNull x then x
  else match descriptor gdt x with
    | none => x
    | some d =>
        if Descriptor.Guarded d ∧ Descriptor.dpl.get d < level then 0 else x

end Tables

/-! ## The processor -/

namespace Flag

def cf : Field 32 := ⟨0, 1, by norm_num⟩
def pf : Field 32 := ⟨2, 1, by norm_num⟩
def af : Field 32 := ⟨4, 1, by norm_num⟩
def zf : Field 32 := ⟨6, 1, by norm_num⟩
def sf : Field 32 := ⟨7, 1, by norm_num⟩
def tf : Field 32 := ⟨8, 1, by norm_num⟩
def interrupts : Field 32 := ⟨9, 1, by norm_num⟩
def of : Field 32 := ⟨11, 1, by norm_num⟩
def iopl : Field 32 := ⟨12, 2, by norm_num⟩
def nt : Field 32 := ⟨14, 1, by norm_num⟩
def rf : Field 32 := ⟨16, 1, by norm_num⟩
def vm : Field 32 := ⟨17, 1, by norm_num⟩

/-- The flags that exist. -/
def mask : BitVec 32 := 0x3F7FD5

/-- What `EFLAGS` holds when a word is loaded: bit 1 is always set, reserved bits are clear. -/
def load (x : BitVec 32) : BitVec 32 := x &&& mask ||| 2

/-- The flags that an addition leaves. -/
def add (a b x : BitVec 32) : BitVec 32 :=
  let r := a + b
  let parity := (List.range 8).countP fun i => r.getLsbD i
  let x := cf.set x (if 2 ^ 32 ≤ a.toNat + b.toNat then 1 else 0)
  let x := pf.set x (if parity % 2 = 0 then 1 else 0)
  let x := af.set x (if 16 ≤ a.toNat % 16 + b.toNat % 16 then 1 else 0)
  let x := zf.set x (if r = 0 then 1 else 0)
  let x := sf.set x (if r.msb then 1 else 0)
  of.set x (if a.msb = b.msb ∧ r.msb ≠ a.msb then 1 else 0)

end Flag

/-- The state of the processor.  `gdt` and `idt` are the tables within their limits, `esp0` and `ss0`
the stack of level 0 in the task state segment. -/
structure Processor where
  reg : Reg → BitVec 32
  seg : Seg → BitVec 16
  cs : BitVec 16
  ss : BitVec 16
  eip : BitVec 32
  eflags : BitVec 32
  mem : Memory
  gdt : List (BitVec 64)
  idt : List (BitVec 64)
  esp0 : BitVec 32
  ss0 : BitVec 16

/-- Machine code. -/
abbrev Code (α : Type) := Prog Fault Processor α

namespace Processor

/-- The current privilege level. -/
def cpl (s : Processor) : ℕ := Selector.rpl.get s.cs

/-- Set a general register. -/
def setReg (s : Processor) (r : Reg) (x : BitVec 32) : Processor :=
  { s with reg := Function.update s.reg r x }

/-- Push a word. -/
def push (x : BitVec 32) (s : Processor) : Processor :=
  { s with
    reg := Function.update s.reg .esp (s.reg .esp - 4)
    mem := s.mem.write (s.reg .esp - 4) x }

/-- Push words, one after the other. -/
def pushAll (xs : List (BitVec 32)) (s : Processor) : Processor := xs.foldl (fun t x => t.push x) s

end Processor

/-- The low half of a word. -/
def lowHalf (x : BitVec 32) : BitVec 16 := x.setWidth 16

/-- The high half of a word. -/
def highHalf (x : BitVec 32) : BitVec 16 := x.extractLsb' 16 16

/-- Push a selector: `pad` is what the processor leaves in the upper half of the slot. -/
def Processor.pushSelector (pad : BitVec 16 → BitVec 16) (x : BitVec 16) (s : Processor) :
    Processor :=
  s.push (pad (highHalf (s.mem.read (s.reg .esp - 4))) ++ x)

/-- Stop if there is a fault. -/
def check : Option Fault → Code Unit
  | none => pure ()
  | some e => Prog.fault e

/-- Pop a word. -/
def pop : Code (BitVec 32) := do
  let x ← Prog.gets fun s => s.mem.read (s.reg .esp)
  Prog.update fun s => s.setReg .esp (s.reg .esp + 4)
  return x

/-- Load a data segment register. -/
def loadSeg (r : Seg) (x : BitVec 16) : Code Unit := do
  let s ← Prog.gets id
  check (dataFault s.gdt s.cpl x)
  Prog.update fun s => { s with seg := Function.update s.seg r x }

/-! ## Exceptions -/

/-- An exception or an interrupt: its vector, its error code if it has one, the resume flag it saves,
and whether it is raised by `INT n`, `INT3` or `INTO`. -/
structure Event where
  vector : ℕ
  error : Option (BitVec 32)
  resume : ℕ
  software : Bool

/-- The exceptions that push an error code. -/
def pushesError (vector : ℕ) : Bool := vector ∈ [8, 10, 11, 12, 13, 14, 17, 21, 29, 30]

/-- `EFLAGS` as an exception saves them. -/
def savedFlags (e : Event) (s : Processor) : BitVec 32 := Flag.rf.set s.eflags e.resume

/-- `EFLAGS` in the handler behind an interrupt gate. -/
def handlerFlags (x : BitVec 32) : BitVec 32 :=
  Flag.interrupts.set (Flag.tf.set (Flag.vm.set (Flag.rf.set (Flag.nt.set x 0) 0) 0) 0) 0

/-- What keeps a gate from being used.  Only instructions need the privilege of the gate. -/
def gateUseFault (cpl : ℕ) (e : Event) (gate : BitVec 64) : Option Fault :=
  if Gate.type.get gate ∈ [5, 6, 7, 15] then some .unmodelled
  else if Gate.type.get gate ≠ 14 then some .generalProtection
  else if e.software ∧ Gate.dpl.get gate < cpl then some .generalProtection
  else if Gate.present.get gate = 0 then some .notPresent
  else none

/-- The switch to the stack of level 0 from the state `old`, whose stack is saved there. -/
def switchStack (pad : BitVec 16 → BitVec 16) (old : Processor) : Code Unit := do
  check (stackFault old.gdt .invalidTss 0 old.ss0)
  Prog.update fun t => { t with ss := t.ss0, reg := Function.update t.reg .esp t.esp0 }
  Prog.update (Processor.pushSelector pad old.ss)
  Prog.update (Processor.push (old.reg .esp))

/-- The stack that a handler of a level runs on. -/
def enterLevel (pad : BitVec 16 → BitVec 16) (old : Processor) (level : ℕ) : Code Unit :=
  if level < old.cpl then switchStack pad old else pure ()

/-- What an exception saves on the stack of its handler. -/
def saveState (pad : BitVec 16 → BitVec 16) (e : Event) (old : Processor) : Code Unit := do
  Prog.update (Processor.push (savedFlags e old))
  Prog.update (Processor.pushSelector pad old.cs)
  Prog.update (Processor.push old.eip)
  Prog.update (Processor.pushAll e.error.toList)

/-- Through a gate, to its handler. -/
def enterGate (pad : BitVec 16 → BitVec 16) (e : Event) (old : Processor) (gate : BitVec 64) :
    Code Unit := do
  let target := BitVec.ofNat 16 (Gate.selector.get gate)
  let level := gateLevel old.gdt old.cpl target
  check (gateUseFault old.cpl e gate)
  check (gateFault old.gdt old.cpl target)
  check (if level < old.cpl ∧ level ≠ 0 then some .unmodelled else none)
  enterLevel pad old level
  saveState pad e old
  Prog.update fun t => { t with
    cs := Selector.rpl.set target level
    eip := Gate.offset gate
    eflags := handlerFlags t.eflags }

/-- The delivery of an exception. -/
def deliver (pad : BitVec 16 → BitVec 16) (e : Event) : Code Unit := do
  let s ← Prog.gets id
  check (if Flag.vm.get s.eflags = 1 then some .unmodelled else none)
  match s.idt[e.vector]? with
  | none => Prog.fault .generalProtection
  | some gate => enterGate pad e s gate

/-- The return to an outer level, to the stack that was saved. -/
def returnOuter (old : Processor) (level : ℕ) : Code Unit := do
  let esp ← pop
  let ss ← pop
  check (stackFault old.gdt .generalProtection level (lowHalf ss))
  Prog.update fun t => { t with
    reg := Function.update t.reg .esp esp
    ss := lowHalf ss
    seg := fun r => outerSeg old.gdt level (t.seg r) }

/-- The stack that code of a level is returned to with. -/
def leaveLevel (old : Processor) (level : ℕ) : Code Unit :=
  if old.cpl < level then returnOuter old level else pure ()

/-- The return from an exception, by code of level 0. -/
def iret : Code Unit := do
  let s ← Prog.gets id
  check (if Flag.nt.get s.eflags = 1 ∨ s.cpl ≠ 0 then some .unmodelled else none)
  let eip ← pop
  let cs ← pop
  let flags ← pop
  check (if Flag.vm.get flags = 1 then some .unmodelled else none)
  check (codeFault s.gdt s.cpl (lowHalf cs))
  leaveLevel s (Selector.rpl.get (lowHalf cs))
  Prog.update fun t => { t with eip := eip, cs := lowHalf cs, eflags := Flag.load flags }

/-! ## Instructions -/

/-- The instructions that are needed. -/
inductive Instr
  | pushImm (x : BitVec 32)
  | pushReg (r : Reg)
  | pushSeg (r : Seg)
  | popSeg (r : Seg)
  | pusha
  | popa
  | movImm16 (r : Reg) (x : BitVec 16)
  | movSeg (dst : Seg) (src : Reg)
  | movSs (src : Reg)
  | mov (dst src : Reg)
  | load (dst base : Reg) (disp : BitVec 32)
  | addImm (dst : Reg) (x : BitVec 32)
  | call (ret : BitVec 32)
  | ljmp (x : BitVec 16)
  | iret

/-- The registers that `popa` loads, and the stack pointer behind them. -/
def poppedRegs (s : Processor) : Reg → BitVec 32
  | .edi => s.mem.read (s.reg .esp)
  | .esi => s.mem.read (s.reg .esp + 4)
  | .ebp => s.mem.read (s.reg .esp + 8)
  | .esp => s.reg .esp + 32
  | .ebx => s.mem.read (s.reg .esp + 16)
  | .edx => s.mem.read (s.reg .esp + 20)
  | .ecx => s.mem.read (s.reg .esp + 24)
  | .eax => s.mem.read (s.reg .esp + 28)

/-- The registers in the order in which `pusha` pushes them. -/
def pushedRegs : List Reg := [.eax, .ecx, .edx, .ebx, .esp, .ebp, .esi, .edi]

/-- One instruction.  The instruction pointer is kept only where control leaves the sequence. -/
def Instr.exec (pad : BitVec 16 → BitVec 16) : Instr → Code Unit
  | .pushImm x => Prog.update fun s => s.push x
  | .pushReg r => Prog.update fun s => s.push (s.reg r)
  | .pushSeg r => Prog.update fun s => s.pushSelector pad (s.seg r)
  | .popSeg r => do
      let x ← pop
      loadSeg r (lowHalf x)
  | .pusha => Prog.update fun s => s.pushAll (pushedRegs.map s.reg)
  | .popa => Prog.update fun s => { s with reg := poppedRegs s }
  | .movImm16 r x => Prog.update fun s => s.setReg r (highHalf (s.reg r) ++ x)
  | .movSeg dst src => do
      let s ← Prog.gets id
      loadSeg dst (lowHalf (s.reg src))
  | .movSs src => do
      let s ← Prog.gets id
      check (stackFault s.gdt .generalProtection s.cpl (lowHalf (s.reg src)))
      Prog.update fun s => { s with ss := lowHalf (s.reg src) }
  | .mov dst src => Prog.update fun s => s.setReg dst (s.reg src)
  | .load dst base disp => Prog.update fun s => s.setReg dst (s.mem.read (s.reg base + disp))
  | .addImm dst x => Prog.update fun s =>
      { s.setReg dst (s.reg dst + x) with eflags := Flag.add (s.reg dst) x s.eflags }
  | .call ret => Prog.update fun s => s.push ret
  | .ljmp x => do
      let s ← Prog.gets id
      check (jumpFault s.gdt s.cpl x)
      Prog.update fun s => { s with cs := Selector.rpl.set x s.cpl }
  | .iret => Ia32.iret

/-- A sequence of instructions. -/
def execAll (pad : BitVec 16 → BitVec 16) : List Instr → Code Unit
  | [] => pure ()
  | i :: is => do
      i.exec pad
      execAll pad is

/-! ## The stack -/

/-- From `top` down, on the memory `m₀`, the words `ws` were pushed, the first of them last. -/
structure Pushed (m₀ : Memory) (top : BitVec 32) (ws : List (BitVec 32)) (e : BitVec 32)
    (m : Memory) : Prop where
  fits : 4 * ws.length ≤ 2 ^ 32
  esp : e = top - BitVec.ofNat 32 (4 * ws.length)
  holds : HoldsAt m e ws
  outside : AgreeOutside e (4 * ws.length) m₀ m

section Stack

variable {m₀ m : Memory} {top e : BitVec 32} {ws l : List (BitVec 32)} {s : Processor}

/-- Nothing was pushed. -/
lemma Pushed.start (m : Memory) (e : BitVec 32) : Pushed m e [] e m :=
  ⟨by simp, by simp, trivial, fun _ _ => rfl⟩

/-- One more word. -/
lemma Pushed.push (h : Pushed m₀ top ws e m) (x : BitVec 32) (hfit : 4 * (ws.length + 1) ≤ 2 ^ 32) :
    Pushed m₀ top (x :: ws) (e - 4) (m.write (e - 4) x) where
  fits := hfit
  esp := by
    rw [h.esp, List.length_cons, Nat.mul_succ, BitVec.ofNat_add, ← sub_sub]
    rfl
  holds := by
    refine ⟨read_write_same m _ x, ?_⟩
    rw [sub_add_cancel]
    exact h.holds.write_below x hfit
  outside := fun b hb => by
    rw [List.length_cons] at hb
    have hlt := b.isLt
    rw [write_outside x (by omega)]
    refine h.outside b ?_
    bv_omega

/-- The stack pointer and the memory of a state. -/
def Processor.withStack (s : Processor) (e : BitVec 32) (m : Memory) : Processor :=
  { s with reg := Function.update s.reg .esp e, mem := m }

@[simp] lemma withStack_esp : (s.withStack e m).reg .esp = e := by
  simp [Processor.withStack]

@[simp] lemma withStack_mem : (s.withStack e m).mem = m := rfl

lemma withStack_reg {r : Reg} (h : r ≠ .esp) : (s.withStack e m).reg r = s.reg r :=
  Function.update_of_ne h ..

@[simp] lemma withStack_self : s.withStack (s.reg .esp) s.mem = s := by
  rw [Processor.withStack, Function.update_eq_self]

@[simp] lemma withStack_withStack (e' : BitVec 32) (m' : Memory) :
    (s.withStack e m).withStack e' m' = s.withStack e' m' := by
  simp only [Processor.withStack, Function.update_idem]

lemma push_eq (x : BitVec 32) :
    s.push x = s.withStack (s.reg .esp - 4) (s.mem.write (s.reg .esp - 4) x) := rfl

variable {Q : Unit → Processor → Prop} {E : Fault → Prop}

/-- The rule for pushing a word. -/
lemma wp_push {x : BitVec 32} (h : Pushed m₀ top ws e m) (hfit : 4 * (ws.length + 1) ≤ 2 ^ 32)
    (hq : ∀ e' m', Pushed m₀ top (x :: ws) e' m' → Q () (s.withStack e' m')) :
    Prog.wp (Prog.update (Processor.push x)) Q E (s.withStack e m) := by
  have hpush := hq _ _ (h.push x hfit)
  rwa [Prog.wp_update, push_eq, withStack_esp, withStack_mem, withStack_withStack]

/-- The rule for pushing a selector. -/
lemma wp_pushSelector {p : BitVec 16 → BitVec 16} {x : BitVec 16} (h : Pushed m₀ top ws e m)
    (hfit : 4 * (ws.length + 1) ≤ 2 ^ 32)
    (hq : ∀ u e' m', lowHalf u = x → Pushed m₀ top (u :: ws) e' m' → Q () (s.withStack e' m')) :
    Prog.wp (Prog.update (Processor.pushSelector p x)) Q E (s.withStack e m) := by
  let u := p (highHalf (m.read (e - 4))) ++ x
  have hlow : lowHalf u = x := BitVec.setWidth_append_eq_right
  have hpush := hq u _ _ hlow (h.push u hfit)
  rw [Prog.wp_update, Processor.pushSelector, push_eq, withStack_esp, withStack_mem,
    withStack_withStack]
  exact hpush

/-- The rule for pushing words. -/
lemma wp_pushAll (h : Pushed m₀ top ws e m) (hfit : 4 * (ws.length + l.length) ≤ 2 ^ 32)
    (hq : ∀ e' m', Pushed m₀ top (l.reverse ++ ws) e' m' → Q () (s.withStack e' m')) :
    Prog.wp (Prog.update (Processor.pushAll l)) Q E (s.withStack e m) := by
  induction l generalizing ws e m with
  | nil => exact hq e m h
  | cons x l ih =>
      rw [List.length_cons] at hfit
      have hstep := ih (h.push x (by omega)) (by rw [List.length_cons]; omega)
        fun e' m' h' => hq e' m' (by rwa [List.reverse_cons, List.append_assoc])
      rw [Prog.wp_update] at hstep ⊢
      rwa [Processor.pushAll, List.foldl_cons, push_eq, withStack_esp, withStack_mem,
        withStack_withStack]

/-- The rule for popping a word. -/
lemma wp_pop {Q : BitVec 32 → Processor → Prop} {w : BitVec 32} (h : HoldsAt m e (w :: ws))
    (hq : HoldsAt m (e + 4) ws → Q w (s.withStack (e + 4) m)) :
    Prog.wp pop Q E (s.withStack e m) := by
  have hset : (s.withStack e m).setReg .esp (e + 4) = s.withStack (e + 4) m := by
    simp only [Processor.setReg, Processor.withStack, Function.update_idem]
  simp only [pop, Prog.wp_bind, Prog.wp_gets, Prog.wp_update, Prog.wp_pure, withStack_esp,
    withStack_mem, hset, h.1]
  exact hq h.2

/-- The rule for a check that passes. -/
lemma wp_check {f : Option Fault} (hf : f = none) (hq : Q () s) : Prog.wp (check f) Q E s := by
  subst hf
  exact hq

/-- The rule for loading a data segment register. -/
lemma wp_loadSeg {r : Seg} {x : BitVec 16} (hf : dataFault s.gdt s.cpl x = none)
    (hq : Q () { s with seg := Function.update s.seg r x }) : Prog.wp (loadSeg r x) Q E s := by
  simp only [loadSeg, Prog.wp_bind, Prog.wp_gets, id_eq]
  exact wp_check hf hq

/-- A check that decides between a result and a fault. -/
lemma wp_check_iff {f : Option Fault} :
    Prog.wp (check f) Q E s ↔ (f = none → Q () s) ∧ ∀ e, f = some e → E e := by
  cases f with
  | none => simp [check]
  | some e => simp [check]

lemma setReg_withStack {r : Reg} (x : BitVec 32) (hr : r ≠ .esp) :
    (s.withStack e m).setReg r x = (s.setReg r x).withStack e m := by
  simp only [Processor.setReg, Processor.withStack, Function.update_comm hr]

lemma setReg_esp_withStack (x : BitVec 32) : (s.withStack e m).setReg .esp x = s.withStack x m := by
  simp only [Processor.setReg, Processor.withStack, Function.update_idem]

/-- A word in the middle. -/
lemma Memory.HoldsAt.get {a : BitVec 32} {w : BitVec 32} (h : HoldsAt m a ws) {i : ℕ}
    (hw : ws[i]? = some w) : m.read (a + BitVec.ofNat 32 (4 * i)) = w := by
  induction ws generalizing a i with
  | nil => simp at hw
  | cons v ws ih =>
      cases i with
      | zero =>
          rw [List.getElem?_cons_zero, Option.some.injEq] at hw
          rw [← hw, ← h.1]
          exact congrArg m.read (BitVec.add_zero a)
      | succ i =>
          rw [List.getElem?_cons_succ] at hw
          rw [Nat.mul_succ, Nat.add_comm, BitVec.ofNat_add, ← add_assoc]
          exact ih h.2 hw

variable {pad : BitVec 16 → BitVec 16}

/-- The rule for what an exception saves. -/
lemma wp_saveState {ev : Event} {old : Processor} (h : Pushed m₀ top ws e m)
    (hfit : 4 * (ws.length + 4) ≤ 2 ^ 32)
    (hq : ∀ u e' m', lowHalf u = old.cs →
      Pushed m₀ top (ev.error.toList.reverse ++ old.eip :: u :: savedFlags ev old :: ws) e' m' →
      Q () (s.withStack e' m')) :
    Prog.wp (saveState pad ev old) Q E (s.withStack e m) := by
  have hlen : ev.error.toList.length ≤ 1 := by
    cases ev.error <;> simp
  rw [saveState, Prog.wp_bind]
  refine wp_push h (by omega) fun _ _ h => ?_
  rw [Prog.wp_bind]
  refine wp_pushSelector h (by rw [List.length_cons]; omega) fun u _ _ hu h => ?_
  rw [Prog.wp_bind]
  refine wp_push h (by simp only [List.length_cons]; omega) fun _ _ h => ?_
  refine wp_pushAll h (by simp only [List.length_cons]; omega) fun e' m' h => ?_
  exact hq u e' m' hu h

/-- The rule for the switch to the stack of level 0. -/
lemma wp_switchStack (hss : stackFault s.gdt .invalidTss 0 s.ss0 = none)
    (hq : ∀ u e' m', lowHalf u = s.ss → Pushed s.mem s.esp0 [s.reg .esp, u] e' m' →
      Q () (Processor.withStack { s with ss := s.ss0 } e' m')) :
    Prog.wp (switchStack pad s) Q E s := by
  rw [switchStack, Prog.wp_bind]
  refine wp_check hss ?_
  rw [Prog.wp_bind, Prog.wp_update, Prog.wp_bind]
  show Prog.wp _ _ E (Processor.withStack { s with ss := s.ss0 } s.esp0 s.mem)
  refine wp_pushSelector (Pushed.start s.mem s.esp0) (by decide) fun u _ _ hu h => ?_
  refine wp_push h (by simp) fun e' m' h => ?_
  exact hq u e' m' hu h

/-- The rule for a sequence of instructions. -/
lemma wp_cons {i : Instr} {is : List Instr}
    (h : Prog.wp (i.exec pad) (fun _ t => Prog.wp (execAll pad is) Q E t) E s) :
    Prog.wp (execAll pad (i :: is)) Q E s := by
  rw [execAll, Prog.wp_bind]
  exact h

/-- The rule for pushing all general registers. -/
lemma wp_pusha (h : Pushed m₀ top ws e m) (hfit : 4 * (ws.length + 8) ≤ 2 ^ 32)
    (hq : ∀ e' m', Pushed m₀ top (s.reg .edi :: s.reg .esi :: s.reg .ebp :: e :: s.reg .ebx ::
      s.reg .edx :: s.reg .ecx :: s.reg .eax :: ws) e' m' → Q () (s.withStack e' m')) :
    Prog.wp (Instr.pusha.exec pad) Q E (s.withStack e m) := by
  have hregs : pushedRegs.map (s.withStack e m).reg = [s.reg .eax, s.reg .ecx, s.reg .edx,
      s.reg .ebx, e, s.reg .ebp, s.reg .esi, s.reg .edi] := by
    simp [pushedRegs, withStack_reg]
  have hpush := wp_pushAll (Q := Q) (E := E) (s := s) (l := pushedRegs.map (s.withStack e m).reg) h
    (by rwa [hregs]) (by rwa [hregs])
  rw [Prog.wp_update] at hpush
  rw [Instr.exec, Prog.wp_update]
  exact hpush

/-- The rule for pushing a data segment register. -/
lemma wp_pushSeg {r : Seg} (h : Pushed m₀ top ws e m) (hfit : 4 * (ws.length + 1) ≤ 2 ^ 32)
    (hq : ∀ u e' m', lowHalf u = s.seg r → Pushed m₀ top (u :: ws) e' m' →
      Q () (s.withStack e' m')) :
    Prog.wp ((Instr.pushSeg r).exec pad) Q E (s.withStack e m) := by
  have hpush := wp_pushSelector (Q := Q) (E := E) (p := pad) h hfit hq
  rw [Prog.wp_update] at hpush
  rw [Instr.exec, Prog.wp_update]
  exact hpush

/-- The rule for moving a selector that can be loaded to a data segment register. -/
lemma wp_movSeg {dst : Seg} {src : Reg} (hsrc : src ≠ .esp)
    (hf : dataFault s.gdt s.cpl (lowHalf (s.reg src)) = none)
    (hq : Q () (Processor.withStack
      { s with seg := Function.update s.seg dst (lowHalf (s.reg src)) } e m)) :
    Prog.wp ((Instr.movSeg dst src).exec pad) Q E (s.withStack e m) := by
  rw [Instr.exec, Prog.wp_bind, Prog.wp_gets]
  have hreg : (s.withStack e m).reg src = s.reg src := withStack_reg hsrc
  refine wp_loadSeg ?_ ?_
  · rw [id_eq, hreg]
    exact hf
  · rw [id_eq, hreg]
    exact hq

/-- The rule for moving a number to the low half of a register. -/
lemma wp_movImm16 {r : Reg} {x : BitVec 16} (hr : r ≠ .esp)
    (hq : Q () ((s.setReg r (highHalf (s.reg r) ++ x)).withStack e m)) :
    Prog.wp ((Instr.movImm16 r x).exec pad) Q E (s.withStack e m) := by
  rw [Instr.exec, Prog.wp_update, setReg_withStack _ hr, withStack_reg hr]
  exact hq

/-- The rule for a far jump to a segment that can be entered. -/
lemma wp_ljmp {x : BitVec 16} (hf : jumpFault s.gdt s.cpl x = none)
    (hq : Q () (Processor.withStack { s with cs := Selector.rpl.set x s.cpl } e m)) :
    Prog.wp ((Instr.ljmp x).exec pad) Q E (s.withStack e m) := by
  rw [Instr.exec, Prog.wp_bind, Prog.wp_gets, Prog.wp_bind]
  exact wp_check hf hq

/-- The rule for loading the stack segment with a selector that can be loaded. -/
lemma wp_movSs {src : Reg} (hsrc : src ≠ .esp)
    (hf : stackFault s.gdt .generalProtection s.cpl (lowHalf (s.reg src)) = none)
    (hq : Q () (Processor.withStack { s with ss := lowHalf (s.reg src) } e m)) :
    Prog.wp ((Instr.movSs src).exec pad) Q E (s.withStack e m) := by
  have hreg : (s.withStack e m).reg src = s.reg src := withStack_reg hsrc
  rw [Instr.exec, Prog.wp_bind, Prog.wp_gets, Prog.wp_bind, id_eq, hreg]
  refine wp_check hf ?_
  rw [Prog.wp_update, hreg]
  exact hq

/-- The rule for moving a register to another. -/
lemma wp_mov {dst src : Reg} (hdst : dst ≠ .esp)
    (hq : Q () ((s.setReg dst ((s.withStack e m).reg src)).withStack e m)) :
    Prog.wp ((Instr.mov dst src).exec pad) Q E (s.withStack e m) := by
  rw [Instr.exec, Prog.wp_update, setReg_withStack _ hdst]
  exact hq

/-- The rule for pushing a register. -/
lemma wp_pushReg {r : Reg} (h : Pushed m₀ top ws e m) (hfit : 4 * (ws.length + 1) ≤ 2 ^ 32)
    (hq : ∀ e' m', Pushed m₀ top ((s.withStack e m).reg r :: ws) e' m' →
      Q () (s.withStack e' m')) :
    Prog.wp ((Instr.pushReg r).exec pad) Q E (s.withStack e m) := by
  have hpush := wp_push (Q := Q) (E := E) h hfit hq
  rw [Prog.wp_update] at hpush
  rw [Instr.exec, Prog.wp_update]
  exact hpush

/-- The rule for adding to the stack pointer. -/
lemma wp_addEsp {x : BitVec 32}
    (hq : Q () (Processor.withStack { s with eflags := Flag.add e x s.eflags } (e + x) m)) :
    Prog.wp ((Instr.addImm .esp x).exec pad) Q E (s.withStack e m) := by
  rw [Instr.exec, Prog.wp_update, withStack_esp, setReg_esp_withStack]
  exact hq

/-- The rule for loading the stack pointer. -/
lemma wp_loadEsp {x disp : BitVec 32} (hx : s.mem.read (s.reg .esp + disp) = x)
    (hq : Q () (s.withStack x s.mem)) : Prog.wp ((Instr.load .esp .esp disp).exec pad) Q E s := by
  rw [Instr.exec, Prog.wp_update, hx]
  exact hq

/-- The rule for popping a data segment register. -/
lemma wp_popSeg {r : Seg} {w : BitVec 32} (h : HoldsAt m e (w :: ws))
    (hq : dataFault s.gdt s.cpl (lowHalf w) = none → HoldsAt m (e + 4) ws →
      Q () (Processor.withStack { s with seg := Function.update s.seg r (lowHalf w) } (e + 4) m))
    (he : dataFault s.gdt s.cpl (lowHalf w) ≠ none → ∀ f, E f) :
    Prog.wp ((Instr.popSeg r).exec pad) Q E (s.withStack e m) := by
  rw [Instr.exec, Prog.wp_bind]
  refine wp_pop h fun h' => ?_
  rw [loadSeg, Prog.wp_bind, Prog.wp_gets, Prog.wp_bind, wp_check_iff]
  refine ⟨fun hf => hq hf h', fun f hf => he ?_ f⟩
  rw [show dataFault s.gdt s.cpl _ = some f from hf]
  simp

/-- The registers that are loaded from eight words on the stack. -/
def loadedRegs (edi esi ebp ebx edx ecx eax : BitVec 32) : Reg → BitVec 32
  | .edi => edi
  | .esi => esi
  | .ebp => ebp
  | .esp => 0
  | .ebx => ebx
  | .edx => edx
  | .ecx => ecx
  | .eax => eax

/-- The rule for popping all general registers. -/
lemma wp_popa {edi esi ebp x ebx edx ecx eax : BitVec 32}
    (h : HoldsAt m e (edi :: esi :: ebp :: x :: ebx :: edx :: ecx :: eax :: ws))
    (hq : HoldsAt m (e + 32) ws → Q () (Processor.withStack
      { s with reg := loadedRegs edi esi ebp ebx edx ecx eax } (e + 32) m)) :
    Prog.wp (Instr.popa.exec pad) Q E (s.withStack e m) := by
  have hregs : poppedRegs (s.withStack e m)
      = Function.update (loadedRegs edi esi ebp ebx edx ecx eax) .esp (e + 32) := by
    funext r
    cases r with
    | edi => simpa [poppedRegs, loadedRegs] using h.get (i := 0) rfl
    | esi => simpa [poppedRegs, loadedRegs] using h.get (i := 1) rfl
    | ebp => simpa [poppedRegs, loadedRegs] using h.get (i := 2) rfl
    | esp => simp [poppedRegs]
    | ebx => simpa [poppedRegs, loadedRegs] using h.get (i := 4) rfl
    | edx => simpa [poppedRegs, loadedRegs] using h.get (i := 5) rfl
    | ecx => simpa [poppedRegs, loadedRegs] using h.get (i := 6) rfl
    | eax => simpa [poppedRegs, loadedRegs] using h.get (i := 7) rfl
  have hrest : HoldsAt m (e + 32) ws := by
    have h' := h.2.2.2.2.2.2.2.2
    simpa [add_assoc] using h'
  rw [Instr.exec, Prog.wp_update, hregs]
  exact hq hrest

/-- The rule for the return from an exception. -/
lemma wp_iret {eip cs flags esp ss : BitVec 32} (hnt : Flag.nt.get s.eflags = 0)
    (hcpl : s.cpl = 0) (h : HoldsAt m e [eip, cs, flags, esp, ss]) (hvm : Flag.vm.get flags = 0)
    (hcode : codeFault s.gdt 0 (lowHalf cs) ≠ none → ∀ f, E f)
    (hsame : codeFault s.gdt 0 (lowHalf cs) = none → Selector.rpl.get (lowHalf cs) = 0 →
      Q () (Processor.withStack
        { s with eip := eip, cs := lowHalf cs, eflags := Flag.load flags } (e + 12) m))
    (houter : codeFault s.gdt 0 (lowHalf cs) = none → 0 < Selector.rpl.get (lowHalf cs) →
      (stackFault s.gdt .generalProtection (Selector.rpl.get (lowHalf cs)) (lowHalf ss) ≠ none →
        ∀ f, E f) ∧
      (stackFault s.gdt .generalProtection (Selector.rpl.get (lowHalf cs)) (lowHalf ss) = none →
        Q () (Processor.withStack
          { s with
            eip := eip
            cs := lowHalf cs
            ss := lowHalf ss
            eflags := Flag.load flags
            seg := fun r => outerSeg s.gdt (Selector.rpl.get (lowHalf cs)) (s.seg r) } esp m))) :
    Prog.wp iret Q E (s.withStack e m) := by
  have hcpl' : (s.withStack e m).cpl = 0 := hcpl
  rw [iret, Prog.wp_bind, Prog.wp_gets, Prog.wp_bind, id_eq]
  refine wp_check (if_neg ?_) ?_
  · rintro (hn | hn)
    · exact absurd (hnt.symm.trans hn) (by decide)
    · exact hn hcpl
  rw [Prog.wp_bind]
  refine wp_pop h fun h => ?_
  rw [Prog.wp_bind]
  refine wp_pop h fun h => ?_
  rw [Prog.wp_bind]
  refine wp_pop h fun h => ?_
  rw [Prog.wp_bind]
  refine wp_check (if_neg (by rw [hvm]; decide)) ?_
  rw [Prog.wp_bind, wp_check_iff, hcpl']
  have h12 : e + 4 + 4 + 4 = e + 12 := by
    rw [add_assoc, add_assoc]
    rfl
  refine ⟨fun hc => ?_, fun f hf => hcode ?_ f⟩
  swap
  · rw [show codeFault s.gdt 0 _ = some f from hf]
    simp
  rw [Prog.wp_bind, leaveLevel, hcpl']
  split_ifs with hlevel
  · rw [returnOuter, Prog.wp_bind]
    refine wp_pop h fun h => ?_
    rw [Prog.wp_bind]
    refine wp_pop h fun _ => ?_
    rw [Prog.wp_bind, wp_check_iff]
    rcases houter hc hlevel with ⟨hbad, hgood⟩
    refine ⟨fun hs => ?_, fun f hf =>
      hbad (by rw [show stackFault s.gdt _ _ _ = some f from hf]; simp) f⟩
    have := hgood hs
    simp only [Prog.wp_update]
    simpa only [Processor.withStack, Function.update_idem] using this
  · have := hsame hc (by omega)
    rw [h12]
    exact this

end Stack

end Ia32

end Akaris
