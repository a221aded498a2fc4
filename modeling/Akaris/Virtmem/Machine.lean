import Akaris.AddressSpace.Defs
import Akaris.Lib.BitField

/-!
# The i686 as the virtual memory code sees it

Physical memory is made of page frames of 1024 words.  `mmuTranslate` is the two-level walk of the
hardware: without `CR4.PSE` the `size` bit is ignored, and a translation needs both its entries
present.  `loadByte`, `storeByte` and `modifyWord` are accesses of the running kernel: they go
through the page directory in `cr3`, and as `enable_paging` leaves `CR0.WP` clear the `writable`
bits do not stop them.  The `invlpg` instructions keep the TLB in step with the tables, so there is
no TLB here.

Everything a C variable of the kernel image holds is part of the state: the physical memory
manager `localmem`, of which `Localmem` is the interface, and the `struct address_space` objects.
`KernelImage` says which frames the linker gave to `kernel_pd` and `kernel_pts`; the kernel image
is identity mapped, so these are accessed without a walk.
-/

namespace Akaris

/-- A 32-bit word. -/
abbrev Word := BitVec 32

/-! ## Page table entries

The bit-fields of `struct i686_pde` and `struct i686_pte`, which differ in bits 6 and 7. -/

namespace Entry

def present : Field 32 := ⟨0, 1, by decide⟩
def writable : Field 32 := ⟨1, 1, by decide⟩
def user : Field 32 := ⟨2, 1, by decide⟩
def writeThrough : Field 32 := ⟨3, 1, by decide⟩
def cacheDisable : Field 32 := ⟨4, 1, by decide⟩
def accessed : Field 32 := ⟨5, 1, by decide⟩
def pdeZero : Field 32 := ⟨6, 1, by decide⟩
def pdeSize : Field 32 := ⟨7, 1, by decide⟩
def pteDirty : Field 32 := ⟨6, 1, by decide⟩
def pteZero : Field 32 := ⟨7, 1, by decide⟩
def global : Field 32 := ⟨8, 1, by decide⟩
def avail : Field 32 := ⟨9, 3, by decide⟩
def physAddr : Field 32 := ⟨12, 20, by decide⟩

end Entry

/-! ## Memory -/

/-- Physical memory: the words of each frame. -/
abbrev PhysMem := ℕ → ℕ → Word

/-- Store a word. -/
def PhysMem.write (mem : PhysMem) (f w : ℕ) (x : Word) : PhysMem :=
  fun f' w' => if f' = f ∧ w' = w then x else mem f' w'

/-- The bits of a word that byte `o` of its frame occupies: the i686 is little-endian. -/
def byteField (o : ℕ) : Field 32 := ⟨8 * (o % 4), 8, by omega⟩

/-- Byte `o` of a frame. -/
def PhysMem.byte (mem : PhysMem) (f o : ℕ) : ℕ := (byteField o).get (mem f (o / 4))

/-- Store a byte. -/
def PhysMem.writeByte (mem : PhysMem) (f o b : ℕ) : PhysMem :=
  mem.write f (o / 4) ((byteField o).set (mem f (o / 4)) b)

/-- Where a virtual address leads, and what may be done there. -/
structure Translation where
  frame : ℕ
  writable : Bool
  user : Bool
  deriving DecidableEq, Repr

/-- The walk of the hardware from the page directory in frame `d`.  A page is writable, or open to
user mode, when both entries say so. -/
def mmuTranslate (mem : PhysMem) (d v : ℕ) : Option Translation :=
  let pde := mem d (v / 2 ^ 22)
  let pte := mem (Entry.physAddr.get pde) (v / 2 ^ 12 % 2 ^ 10)
  if Entry.present.get pde = 1 ∧ Entry.present.get pte = 1 then
    some {
      frame := Entry.physAddr.get pte
      writable := Entry.writable.get pde == 1 && Entry.writable.get pte == 1
      user := Entry.user.get pde == 1 && Entry.user.get pte == 1 }
  else none

/-! ## The machine -/

/-- The physical memory manager of the CPU, as its users know it.  What `page_alloc` hands out was
`free`: a frame of memory other than frame 0, and from then on not free. -/
structure Localmem (ρ : Type) where
  pageAlloc : ρ → Except PhysmemError ℕ × ρ
  pageFree : ℕ → ρ → Except PhysmemError Unit × ρ
  /-- The frames the manager may still hand out. -/
  free : ρ → Set ℕ
  free_range : ∀ l, ∀ f ∈ free l, 0 < f ∧ f < 2 ^ 20
  pageAlloc_ok : ∀ {l l' address}, pageAlloc l = (.ok address, l') →
    ∃ f ∈ free l, address = f * 4096 ∧ f ∉ free l'
  pageAlloc_free : ∀ {l}, free (pageAlloc l).2 ⊆ free l

/-- The frames of `kernel_pd` and of the 256 tables `kernel_pts`.  That they begin at a page is what
their `aligned` attributes in `i686_virtmem.c` are for; the one of `kernel_pd` names no number, and
`cr3` takes a page directory at a page only. -/
structure KernelImage where
  kernelPd : ℕ
  kernelPts : ℕ
  kernelPd_range : 0 < kernelPd ∧ kernelPd < 2 ^ 20
  kernelPts_range : 0 < kernelPts ∧ kernelPts + 256 ≤ 2 ^ 20
  apart : kernelPd < kernelPts ∨ kernelPts + 256 ≤ kernelPd

/-- The state of the machine.  `cr3` is a physical address, as is the `pd` of an address space. -/
structure Machine (ρ : Type) where
  mem : PhysMem
  cr3 : ℕ
  localmem : ρ
  as : ℕ → AddressSpace

/-- Why the kernel does not come back. -/
inductive MachineFault
  /-- A failing `assert`, which loops forever. -/
  | assertFailed
  /-- An access to a page that is not present. -/
  | pageFault
  /-- A variable read before anything was stored to it. -/
  | uninitialised
  /-- An access through a null pointer. -/
  | nullDereference
  deriving DecidableEq, Repr

/-- Kernel code. -/
abbrev MachineProg (ρ α : Type) := Prog MachineFault (Machine ρ) α

variable {ρ : Type}

/-- The frame that a kernel access to `v` goes to. -/
def accessFrame (v : ℕ) : MachineProg ρ ℕ := do
  match (← Prog.gets fun s => mmuTranslate s.mem (s.cr3 / 4096) v) with
  | none => Prog.fault .pageFault
  | some t => return t.frame

/-- Load the word at an aligned address. -/
def loadWord (v : ℕ) : MachineProg ρ Word := do
  let f ← accessFrame v
  Prog.gets fun s => s.mem f (v % 4096 / 4)

/-- Change the word at an aligned address. -/
def modifyWord (v : ℕ) (g : Word → Word) : MachineProg ρ Unit := do
  let f ← accessFrame v
  Prog.update fun s => { s with mem := s.mem.write f (v % 4096 / 4) (g (s.mem f (v % 4096 / 4))) }

/-- Load a byte. -/
def loadByte (v : ℕ) : MachineProg ρ ℕ := do
  let f ← accessFrame v
  Prog.gets fun s => s.mem.byte f (v % 4096)

/-- Store a byte. -/
def storeByte (v b : ℕ) : MachineProg ρ Unit := do
  let f ← accessFrame v
  Prog.update fun s => { s with mem := s.mem.writeByte f (v % 4096) b }

/-- `memset` of `lib/strfuncs.c`. -/
def memset (d c : ℕ) : (len : ℕ) → MachineProg ρ Unit
  | 0 => pure ()
  | len + 1 => do
      storeByte d (c % 256)
      memset (wrap32 (d + 1)) c len

/-- `memcpy` of `lib/strfuncs.c`. -/
def memcpy (d s : ℕ) : (siz : ℕ) → MachineProg ρ Unit
  | 0 => pure ()
  | siz + 1 => do
      let b ← loadByte s
      storeByte d b
      memcpy (wrap32 (d + 1)) (wrap32 (s + 1)) siz

end Akaris
