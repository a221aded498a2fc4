import Akaris.Lib.Ia32
import Akaris.Lib.Word

/-!
# Interrupts

`i686/i686_cpu.c`: the descriptor tables, the stubs that exceptions enter the kernel through, and
the return to user space.  An exception is delivered to the stub of its vector, which pushes a zero
where the processor pushes no error code and then the vector; `i686_int_handler` pushes the general
and the data segment registers and calls `i686_int_entry` with a pointer to what now is a
`struct i686_context`.  `i686_userspace_return` goes the other way, from a pointer to a context.

`i686_int_entry` reports the exception and loops forever.
-/

namespace Akaris

open Ia32

/-! ## Descriptors -/

lemma packedField_fits {widths : List ℕ} (h : widths.sum ≤ 64) (i : ℕ) :
    (widths.take i).sum + (widths.drop i).headD 0 ≤ 64 := by
  have hsum : (widths.take i).sum + (widths.drop i).sum = widths.sum := by
    rw [← List.sum_append, List.take_append_drop]
  have hhead : (widths.drop i).headD 0 ≤ (widths.drop i).sum := by
    cases widths.drop i with
    | nil => exact le_refl 0
    | cons w ws => exact Nat.le_add_right w ws.sum
  omega

/-- The fields of a packed structure lie one behind the other: field `i` of those that have the given
widths. -/
def packedField (widths : List ℕ) (h : widths.sum ≤ 64) (i : ℕ) : Field 64 :=
  ⟨(widths.take i).sum, (widths.drop i).headD 0, packedField_fits h i⟩

/-- A `struct i686_gdt_entry`. -/
structure I686GdtEntry where
  limitLow : ℕ
  baseLow : ℕ
  baseMid : ℕ
  type : ℕ
  system : ℕ
  dpl : ℕ
  present : ℕ
  limitHigh : ℕ
  avl : ℕ
  reserved : ℕ
  opSize : ℕ
  granularity : ℕ
  baseHigh : ℕ

namespace GdtEntry

/-- The widths of the fields, in their order. -/
def widths : List ℕ := [16, 16, 8, 4, 1, 2, 1, 4, 1, 1, 1, 1, 8]

lemma widths_fit : widths.sum ≤ 64 := by decide

def limitLow : Field 64 := packedField widths widths_fit 0
def baseLow : Field 64 := packedField widths widths_fit 1
def baseMid : Field 64 := packedField widths widths_fit 2
def type : Field 64 := packedField widths widths_fit 3
def system : Field 64 := packedField widths widths_fit 4
def dpl : Field 64 := packedField widths widths_fit 5
def present : Field 64 := packedField widths widths_fit 6
def limitHigh : Field 64 := packedField widths widths_fit 7
def avl : Field 64 := packedField widths widths_fit 8
def reserved : Field 64 := packedField widths widths_fit 9
def opSize : Field 64 := packedField widths widths_fit 10
def granularity : Field 64 := packedField widths widths_fit 11
def baseHigh : Field 64 := packedField widths widths_fit 12

end GdtEntry

/-- Store to fields, the last of the list first. -/
def setFields {n : ℕ} : List (Field n × ℕ) → BitVec n
  | [] => 0
  | (f, x) :: fs => f.set (setFields fs) x

/-- The eight bytes of an entry. -/
def I686GdtEntry.bits (e : I686GdtEntry) : BitVec 64 :=
  setFields [(GdtEntry.limitLow, e.limitLow), (GdtEntry.baseLow, e.baseLow),
    (GdtEntry.baseMid, e.baseMid), (GdtEntry.type, e.type), (GdtEntry.system, e.system),
    (GdtEntry.dpl, e.dpl), (GdtEntry.present, e.present), (GdtEntry.limitHigh, e.limitHigh),
    (GdtEntry.avl, e.avl), (GdtEntry.reserved, e.reserved), (GdtEntry.opSize, e.opSize),
    (GdtEntry.granularity, e.granularity), (GdtEntry.baseHigh, e.baseHigh)]

/-- `sizeof(struct i686_gdt_entry)`. -/
def sizeofGdtEntry : ℕ := 8

/-- `sizeof(struct i686_tss)`: 26 words. -/
def sizeofI686Tss : ℕ := 104

/-- The entries 0 to 4 that `i686_setup_gdt` stores: none, code and data of the kernel, code and data
of user programs. -/
def flatEntries : List I686GdtEntry :=
  [{ limitLow := 0, baseLow := 0, baseMid := 0, type := 0, system := 0, dpl := 0, present := 0,
     limitHigh := 0, avl := 0, reserved := 0, opSize := 0, granularity := 0, baseHigh := 0 },
   { limitLow := 0xFFFF, baseLow := 0, baseMid := 0, type := 0xA, system := 1, dpl := 0, present := 1,
     limitHigh := 0xF, avl := 0, reserved := 0, opSize := 1, granularity := 1, baseHigh := 0 },
   { limitLow := 0xFFFF, baseLow := 0, baseMid := 0, type := 0x2, system := 1, dpl := 0, present := 1,
     limitHigh := 0xF, avl := 0, reserved := 0, opSize := 1, granularity := 1, baseHigh := 0 },
   { limitLow := 0xFFFF, baseLow := 0, baseMid := 0, type := 0xA, system := 1, dpl := 3, present := 1,
     limitHigh := 0xF, avl := 0, reserved := 0, opSize := 1, granularity := 1, baseHigh := 0 },
   { limitLow := 0xFFFF, baseLow := 0, baseMid := 0, type := 0x2, system := 1, dpl := 3, present := 1,
     limitHigh := 0xF, avl := 0, reserved := 0, opSize := 1, granularity := 1, baseHigh := 0 }]

/-- The entry 5, for a task state segment at `tss`. -/
def tssEntry (tss : BitVec 32) : I686GdtEntry :=
  { limitLow := (sizeofI686Tss - 1) &&& 0xFFFF, baseLow := tss.toNat &&& 0xFFFF,
    baseMid := (tss.toNat &&& 0xFFFFFF) >>> 16, type := 0x9, system := 0, dpl := 0, present := 1,
    limitHigh := (sizeofI686Tss - 1) >>> 16, avl := 0, reserved := 0, opSize := 1, granularity := 0,
    baseHigh := tss.toNat >>> 24 }

/-- The table that `i686_setup_gdt` fills in. -/
def kernelGdt (tss : BitVec 32) : List (BitVec 64) :=
  (flatEntries ++ [tssEntry tss]).map I686GdtEntry.bits

/-- The part of a table of descriptors that is within a limit. -/
def withinLimit (limit : ℕ) (table : List (BitVec 64)) : List (BitVec 64) :=
  table.take ((limit + 1) / sizeofGdtEntry)

/-- `i686_cpu_set_gdt`.  The limit that it loads is one more than the last offset. -/
def i686CpuSetGdt (pad : BitVec 16 → BitVec 16) (gdt : List (BitVec 64)) (length : ℕ) :
    Code Unit := do
  let limit := length * sizeofGdtEntry % 2 ^ 16
  Prog.update fun s => { s with gdt := withinLimit limit gdt }
  execAll pad [.ljmp 0x08, .movImm16 .eax 0x10, .movSeg .ds .eax, .movSeg .es .eax,
    .movSeg .fs .eax, .movSeg .gs .eax, .movSs .eax]

/-- `i686_setup_gdt`, up to the call that loads the task register. -/
def i686SetupGdt (pad : BitVec 16 → BitVec 16) (tss : BitVec 32) : Code Unit :=
  i686CpuSetGdt pad (kernelGdt tss) 6

/-- `i686_cpu_set_tss_stack`, of the task state segment that the task register selects. -/
def i686CpuSetTssStack (stack : BitVec 32) (size : ℕ) : Code Unit := do
  Prog.assert (stack.toNat % 4 = 0) .unmodelled
  Prog.assert (size % 4 = 0) .unmodelled
  Prog.update fun s => { s with ss0 := 0x10, esp0 := stack + BitVec.ofNat 32 size - 4 }

/-! ## The interrupt table -/

/-- The values of `i686_exception`. -/
inductive I686Exception
  | de | db | nmi | bp | of | br | ud | nm | df | co | ts | np | ss | gp | pf | rs | mf | ac | mc | xm
  | ve
  deriving DecidableEq, Repr

/-- The vector of an exception. -/
def I686Exception.vector : I686Exception → ℕ
  | de => 0 | db => 1 | nmi => 2 | bp => 3 | of => 4 | br => 5 | ud => 6 | nm => 7 | df => 8
  | co => 9 | ts => 10 | np => 11 | ss => 12 | gp => 13 | pf => 14 | rs => 15 | mf => 16 | ac => 17
  | mc => 18 | xm => 19 | ve => 20

namespace IdtEntry

/-- The widths of the fields of a `struct i686_idt_entry`, in their order. -/
def widths : List ℕ := [16, 16, 5, 3, 5, 2, 1, 16]

lemma widths_fit : widths.sum ≤ 64 := by decide

def offsetLow : Field 64 := packedField widths widths_fit 0
def segment : Field 64 := packedField widths widths_fit 1
def reserved : Field 64 := packedField widths widths_fit 2
def zeroes : Field 64 := packedField widths widths_fit 3
def type : Field 64 := packedField widths widths_fit 4
def dpl : Field 64 := packedField widths widths_fit 5
def present : Field 64 := packedField widths widths_fit 6
def offsetHigh : Field 64 := packedField widths widths_fit 7

end IdtEntry

/-- The `struct i686_idt_entry` that `i686_set_idt_entry` stores. -/
def i686SetIdtEntry (entry : BitVec 32) : BitVec 64 :=
  setFields [(IdtEntry.offsetLow, entry.toNat &&& 0xFFFF), (IdtEntry.offsetHigh, entry.toNat >>> 16),
    (IdtEntry.zeroes, 0), (IdtEntry.type, 0xE), (IdtEntry.segment, 0x8), (IdtEntry.dpl, 0),
    (IdtEntry.present, 1)]

/-- Which stub `i686_setup_idt` enters for which exception. -/
def idtHandlers : List (I686Exception × ℕ) :=
  [(.de, 0), (.db, 1), (.nmi, 2), (.bp, 3), (.of, 4), (.br, 5), (.ud, 6), (.nm, 7), (.df, 8),
   (.co, 9), (.ts, 10), (.np, 11), (.ss, 12), (.gp, 13), (.pf, 14), (.rs, 15), (.mf, 16), (.ac, 17),
   (.mc, 18), (.xm, 19), (.ve, 20)]

/-- Where the linker put the stubs `i686_int_handler_0` to `i686_int_handler_20`, and the return
address of the call of `i686_int_entry`. -/
structure Symbols where
  intHandler : ℕ → BitVec 32
  distinct : ∀ i < 21, ∀ j < 21, intHandler i = intHandler j → i = j
  intEntryReturn : BitVec 32

/-- The table that `i686_setup_idt` fills in. -/
def idtEntries (S : Symbols) : List (BitVec 64) :=
  idtHandlers.foldl (fun idt p => idt.set p.1.vector (i686SetIdtEntry (S.intHandler p.2)))
    (List.replicate 256 0)

/-- `i686_setup_idt`, with `i686_cpu_set_idt`. -/
def i686SetupIdt (S : Symbols) : Code Unit :=
  Prog.update fun s => { s with idt := withinLimit (256 * sizeofGdtEntry % 2 ^ 16) (idtEntries S) }

/-! ## Entry and return -/

/-- `I686_INT_HANDLER_WERR`. -/
def i686IntHandlerWerr (n : ℕ) : List Instr := [.pushImm (BitVec.ofNat 32 n)]

/-- `I686_INT_HANDLER_NOERR`. -/
def i686IntHandlerNoerr (n : ℕ) : List Instr := [.pushImm 0, .pushImm (BitVec.ofNat 32 n)]

/-- The stubs, by number. -/
def intStubs : List (List Instr) :=
  [i686IntHandlerNoerr 0, i686IntHandlerNoerr 1, i686IntHandlerNoerr 2, i686IntHandlerNoerr 3,
   i686IntHandlerNoerr 4, i686IntHandlerNoerr 5, i686IntHandlerNoerr 6, i686IntHandlerNoerr 7,
   i686IntHandlerWerr 8, i686IntHandlerNoerr 9, i686IntHandlerWerr 10, i686IntHandlerWerr 11,
   i686IntHandlerWerr 12, i686IntHandlerWerr 13, i686IntHandlerWerr 14, i686IntHandlerNoerr 15,
   i686IntHandlerNoerr 16, i686IntHandlerWerr 17, i686IntHandlerNoerr 18, i686IntHandlerNoerr 19,
   i686IntHandlerNoerr 20]

/-- `i686_int_handler`, up to the first instruction of `i686_int_entry`. -/
def i686IntHandler (ret : BitVec 32) : List Instr :=
  [.pusha, .pushSeg .ds, .pushSeg .es, .pushSeg .fs, .pushSeg .gs,
   .movImm16 .eax 0x10, .movSeg .ds .eax, .movSeg .es .eax, .movSeg .fs .eax, .movSeg .gs .eax,
   .mov .eax .esp, .pushReg .eax, .call ret]

/-- The stub at an address. -/
def Symbols.stubAt (S : Symbols) (eip : BitVec 32) : Option (List Instr) :=
  ((List.range 21).find? fun n => S.intHandler n = eip).bind fun n => intStubs[n]?

/-- The code at the address that a gate led to. -/
def runStub (pad : BitVec 16 → BitVec 16) (S : Symbols) (eip : BitVec 32) : Code Unit :=
  match S.stubAt eip with
  | none => Prog.fault .unmodelled
  | some stub => execAll pad (stub ++ i686IntHandler S.intEntryReturn)

/-- An exception and the code that it is delivered to, up to `i686_int_entry`. -/
def interruptEntry (pad : BitVec 16 → BitVec 16) (S : Symbols) (e : Event) : Code Unit := do
  deliver pad e
  let eip ← Prog.gets fun s => s.eip
  runStub pad S eip

/-- The part of `i686_cpu_init` that sets up the processor, with 1024 words of stack. -/
def i686CpuInit (pad : BitVec 16 → BitVec 16) (S : Symbols) (tss stack : BitVec 32) : Code Unit := do
  i686SetupGdt pad tss
  i686SetupIdt S
  i686CpuSetTssStack stack 4096

/-- `i686_userspace_return`. -/
def i686UserspaceReturn : List Instr :=
  [.load .esp .esp 4, .popSeg .gs, .popSeg .fs, .popSeg .es, .popSeg .ds, .popa, .addImm .esp 8,
   .iret]

/-- A `struct i686_context`. -/
structure I686Context where
  gs : BitVec 32
  fs : BitVec 32
  es : BitVec 32
  ds : BitVec 32
  edi : BitVec 32
  esi : BitVec 32
  ebp : BitVec 32
  esp : BitVec 32
  ebx : BitVec 32
  edx : BitVec 32
  ecx : BitVec 32
  eax : BitVec 32
  intNo : BitVec 32
  errCode : BitVec 32
  eip : BitVec 32
  cs : BitVec 32
  eflags : BitVec 32
  useresp : BitVec 32
  ss : BitVec 32

/-- The words of a context, as they lie in memory. -/
def I686Context.words (c : I686Context) : List (BitVec 32) :=
  [c.gs, c.fs, c.es, c.ds, c.edi, c.esi, c.ebp, c.esp, c.ebx, c.edx, c.ecx, c.eax, c.intNo,
   c.errCode, c.eip, c.cs, c.eflags, c.useresp, c.ss]

end Akaris
