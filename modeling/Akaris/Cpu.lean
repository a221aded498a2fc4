import Akaris.Lib.Prog
import Akaris.Physmem.Defs

/-!
# What architecture-independent code calls through `cpu()`

The code under `common/` reaches the machine through two tables of function pointers, the
`localmem` and the `kvirt` of a `struct cpu`, and through plain stores to kernel memory.  `Cpu` is
such a table over an arbitrary machine state `σ` and machine fault `ε`, so that the common code is
modelled once and the i686 machine is one instance.
-/

namespace Akaris

/-- The values of `virtmem_error_t` other than `VIRTMEM_SUCCESS`, which is `Except.ok`. -/
inductive VirtmemError
  | notpresent
  | oom
  deriving DecidableEq, Repr

/-- `VIRTMEM_PAGE_READABLE`. -/
def virtmemPageReadable : ℕ := 1

/-- `VIRTMEM_PAGE_WRITABLE`. -/
def virtmemPageWritable : ℕ := 2

/-- `VIRTMEM_PAGE_EXECUTABLE`. -/
def virtmemPageExecutable : ℕ := 4

/-- A `struct cpu`, as far as the common code uses it.  `0` is the null pointer, a `NULL` result of
a C function is an error here. -/
structure Cpu (ε σ : Type) where
  /-- `physmem_page_size`; it fits the `int` and `long` variables it is stored in. -/
  physmemPageSize : ℕ
  physmemPageSize_lt : physmemPageSize < 2 ^ 31
  physmemPageAlloc : Prog ε σ (Except PhysmemError ℕ)
  physmemPageFree : (address : ℕ) → Prog ε σ (Except PhysmemError Unit)
  virtmemKernelAlloc : (nPages : ℕ) → Prog ε σ (Except VirtmemError ℕ)
  virtmemKernelFree : (addr : ℕ) → Prog ε σ (Except VirtmemError Unit)
  virtmemKernelMapVirtToPhys : (p addr : ℕ) → Prog ε σ (Except VirtmemError Unit)
  virtmemUserGetPage : (c vaddr : ℕ) → Prog ε σ (Except VirtmemError ℕ)
  virtmemUserMapPage : (c vaddr p : ℕ) → Prog ε σ (Except VirtmemError Unit)
  virtmemUserSetPageFlags : (c vaddr flags : ℕ) → Prog ε σ (Except VirtmemError Unit)
  virtmemUserSetupKernelspace : (c : ℕ) → Prog ε σ (Except VirtmemError Unit)
  memset : (s c n : ℕ) → Prog ε σ Unit
  memcpy : (dst src n : ℕ) → Prog ε σ Unit

/-- A page size that the common code can work with. -/
lemma fourKiB_lt : 4096 < 2 ^ 31 := by norm_num

/-- A machine that hands out one page after the other; its state is the number of the next. -/
def pageByPage : Cpu Empty ℕ where
  physmemPageSize := 4096
  physmemPageSize_lt := fourKiB_lt
  physmemPageAlloc := fun n => .ok (.ok (n * 4096), n)
  physmemPageFree _ := pure (.ok ())
  virtmemKernelAlloc _ := fun n => .ok (.ok (n * 4096), n + 1)
  virtmemKernelFree _ := pure (.ok ())
  virtmemKernelMapVirtToPhys _ _ := pure (.ok ())
  virtmemUserGetPage _ _ := pure (.error .notpresent)
  virtmemUserMapPage _ _ _ := pure (.ok ())
  virtmemUserSetPageFlags _ _ _ := pure (.ok ())
  virtmemUserSetupKernelspace _ := pure (.ok ())
  memset _ _ _ := pure ()
  memcpy _ _ _ := pure ()

end Akaris
