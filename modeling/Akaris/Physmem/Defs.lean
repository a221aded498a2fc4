import Mathlib
import Akaris.Lib.Prog
import Akaris.Lib.BsdList
import Akaris.Lib.Word

/-!
# The physical page allocators

`common/physmem.c`: the base allocator `commonPhysmem…` that hands out the pages of one free list,
and the *feeder*, an allocator that keeps a private free list and refills it from a source.

A `struct physmem` is a C object with a table of function pointers, and feeder code calls through
two of those tables: `feeder->source->v.page_alloc(p, …)` runs the *source's* allocation function
on the feeder's own lists.  `Vfuncs` is what the function pointers of a manager can be,
`Managers` is the memory the managers live in, and `pageAlloc` / `pageFree` are the calls through
a pointer.  Their first argument bounds the depth of nested calls, which is 4 for a feeder over a
common source and unbounded for one feeder over another.

Managers and page structures are named by numbers, a page by its index in the page array, and a
`physaddr_t` is a number too.  Pages link each other through the one `pages` field they have, so a
page can be on at most one free list: see `Akaris/Lib/BsdList.lean`.  Counters are 32 bits wide and
wrap.
-/

namespace Akaris

/-- The values of `physmem_error_t` other than `PHYSMEM_SUCCESS`, which is `Except.ok`. -/
inductive PhysmemError
  | memused
  | initcond
  | oom
  | doublefree
  deriving DecidableEq, Repr

/-- Why an allocator call does not return. -/
inductive PhysmemFault
  /-- `assert(!LIST_EMPTY(&_phys->freelist))` in `common_physmem_page_alloc`. -/
  | assertFreelistNotEmpty
  /-- Feeder code called on an object that is not a `struct feeder_physmem`. -/
  | notAFeeder
  /-- `newaddr` read before any allocation stored to it. -/
  | uninitialised
  /-- The bound on nested calls is used up. -/
  | callDepth
  deriving DecidableEq, Repr

/-- The fields `struct feeder_physmem` adds to `struct physmem`. -/
structure FeederPhysmem where
  source : ℕ
  pagesToKeep : ℕ
  minFreeSourcePages : ℕ
  deriving DecidableEq, Repr

/-- The function table of a manager: the common one, or the one `feeder_physmem_create` installs,
in an object that has the feeder's fields. -/
inductive Vfuncs
  | common
  | feeder (f : FeederPhysmem)
  deriving DecidableEq, Repr

/-- A `struct physmem`.  Its free list head lives in `Managers.links`. -/
structure Physmem where
  v : Vfuncs
  totalPages : ℕ
  freePages : ℕ
  deriving DecidableEq, Repr

/-- The managers in memory and the links of all free lists; `count` managers are initialised. -/
structure Managers where
  count : ℕ
  mgr : ℕ → Physmem
  links : BsdList.Links ℕ ℕ

/-- The `page_to_phys` and `phys_to_page` functions of the underlying `struct physmem`, and the
pages they convert faithfully. -/
structure PageTable where
  pageToPhys : ℕ → ℕ
  physToPage : ℕ → ℕ
  managed : ℕ → Prop
  physToPage_pageToPhys : ∀ p, managed p → physToPage (pageToPhys p) = p

/-- Allocator code. -/
abbrev PhysmemProg (α : Type) := Prog PhysmemFault Managers α

namespace Managers

/-- Store a manager back. -/
def setMgr (s : Managers) (m : ℕ) (p : Physmem) : Managers :=
  { s with mgr := Function.update s.mgr m p }

/-- Replace the links. -/
def setLinks (s : Managers) (L : BsdList.Links ℕ ℕ) : Managers := { s with links := L }

@[simp] lemma setMgr_count (s : Managers) (m p) : (s.setMgr m p).count = s.count := rfl
@[simp] lemma setMgr_links (s : Managers) (m p) : (s.setMgr m p).links = s.links := rfl
@[simp] lemma setMgr_mgr (s : Managers) (m p) :
    (s.setMgr m p).mgr = Function.update s.mgr m p := rfl
@[simp] lemma setLinks_count (s : Managers) (L) : (s.setLinks L).count = s.count := rfl
@[simp] lemma setLinks_mgr (s : Managers) (L) : (s.setLinks L).mgr = s.mgr := rfl
@[simp] lemma setLinks_links (s : Managers) (L) : (s.setLinks L).links = L := rfl

end Managers

/-- Dereference a `struct physmem *`. -/
def getMgr (m : ℕ) : PhysmemProg Physmem := Prog.gets fun s => s.mgr m

/-- The cast `(struct feeder_physmem *)p`. -/
def asFeeder (m : ℕ) : PhysmemProg FeederPhysmem := do
  let p ← getMgr m
  match p.v with
  | .feeder f => pure f
  | .common => Prog.fault .notAFeeder

variable (T : PageTable)

/-- A call through `v.phys_to_page`: a feeder forwards it to its source. -/
def physmemPhysToPage : ℕ → ℕ → ℕ → PhysmemProg ℕ
  | 0, _, _ => Prog.fault .callDepth
  | d + 1, m, addr => do
      let p ← getMgr m
      match p.v with
      | .common => pure (T.physToPage addr)
      | .feeder f => physmemPhysToPage d f.source addr

/-- A call through `v.page_to_phys`: a feeder forwards it to its source. -/
def physmemPageToPhys : ℕ → ℕ → ℕ → PhysmemProg ℕ
  | 0, _, _ => Prog.fault .callDepth
  | d + 1, m, page => do
      let p ← getMgr m
      match p.v with
      | .common => pure (T.pageToPhys page)
      | .feeder f => physmemPageToPhys d f.source page

/-! ## The base implementation -/

/-- `common_physmem_page_alloc`. -/
def commonPhysmemPageAlloc (d m : ℕ) :
    PhysmemProg (Except PhysmemError ℕ) := do
  let phys ← getMgr m
  if phys.freePages = 0 then
    return .error .oom
  Prog.update fun s => s.setMgr m { phys with freePages := phys.freePages - 1 }
  match (← Prog.gets fun s => s.links.lhFirst m) with
  | none => Prog.fault .assertFreelistNotEmpty
  | some newpage =>
      Prog.update fun s => s.setLinks (s.links.remove newpage)
      let address ← physmemPageToPhys T d m newpage
      return .ok address

/-- `common_physmem_page_free`, which always returns `PHYSMEM_SUCCESS`. -/
def commonPhysmemPageFree (d m address : ℕ) :
    PhysmemProg (Except PhysmemError Unit) := do
  let page ← physmemPhysToPage T d m address
  Prog.update fun s => s.setLinks (s.links.insertHead m page)
  let phys ← getMgr m
  Prog.update fun s => s.setMgr m { phys with freePages := wrap32 (phys.freePages + 1) }
  return .ok ()

/-! ## The feeder -/

/-- `feeder_physmem_page_free`.  `call` is a call through a `page_free` pointer: the source's
function runs on the source when it is low on pages, and on the feeder itself otherwise. -/
def feederPhysmemPageFree
    (call : Vfuncs → ℕ → ℕ → PhysmemProg (Except PhysmemError Unit))
    (m addr : ℕ) : PhysmemProg (Except PhysmemError Unit) := do
  let feeder ← asFeeder m
  let source ← getMgr feeder.source
  if source.freePages < feeder.minFreeSourcePages then
    let _ ← call source.v feeder.source addr
    return .ok ()
  else
    let _ ← call source.v m addr
    return .ok ()

/-- The `while (xfer_pages)` loop of `feeder_physmem_page_alloc`.  The result of the allocation is
ignored; `newaddr` is what the variable holds, `none` before the first store. -/
def feederRefill (call : Vfuncs → ℕ → PhysmemProg (Except PhysmemError ℕ))
    (d m : ℕ) (feeder : FeederPhysmem) :
    (xferPages : ℕ) → (newaddr : Option ℕ) → PhysmemProg Unit
  | 0, _ => pure ()
  | xferPages + 1, newaddr => do
      let source ← getMgr feeder.source
      if source.freePages ≤ feeder.minFreeSourcePages then
        return ()
      let newaddr := match (← call source.v feeder.source) with
        | .ok addr => some addr
        | .error _ => newaddr
      match newaddr with
      | none => Prog.fault .uninitialised
      | some addr =>
          let newpage ← physmemPhysToPage T d feeder.source addr
          Prog.update fun s => s.setLinks (s.links.insertHead m newpage)
          let p ← getMgr m
          Prog.update fun s => s.setMgr m
            { p with
              freePages := wrap32 (p.freePages + 1)
              totalPages := wrap32 (p.totalPages + 1) }
          feederRefill call d m feeder xferPages newaddr

/-- `feeder_physmem_page_alloc`.  The subtraction that sets `xfer_pages` wraps at 32 bits, and so
does the `+ 1` on `pages_to_keep`. -/
def feederPhysmemPageAlloc
    (call : Vfuncs → ℕ → PhysmemProg (Except PhysmemError ℕ))
    (d m : ℕ) : PhysmemProg (Except PhysmemError ℕ) := do
  let feeder ← asFeeder m
  let p ← getMgr m
  if p.freePages < wrap32 (feeder.pagesToKeep + 1) then
    feederRefill T call d m feeder (wrap32 (sub32 feeder.pagesToKeep p.freePages + 1)) none
  let p ← getMgr m
  let source ← getMgr feeder.source
  if 0 < p.freePages then
    call source.v m
  else
    call source.v feeder.source

/-- `feeder_physmem_create`: a fresh manager with an empty free list. -/
def feederPhysmemCreate (s : Managers) (source : ℕ)
    (pagesToKeep minFreeSourcePages : ℕ) : Managers where
  count := s.count + 1
  mgr := Function.update s.mgr s.count
    { v := .feeder { source, pagesToKeep, minFreeSourcePages }
      totalPages := 0
      freePages := 0 }
  links := s.links.listInit s.count

/-! ## Calls through the function table -/

/-- A call through a `page_alloc` pointer on manager `m`. -/
def pageAlloc : ℕ → Vfuncs → ℕ → PhysmemProg (Except PhysmemError ℕ)
  | 0, _, _ => Prog.fault .callDepth
  | d + 1, .common, m => commonPhysmemPageAlloc T d m
  | d + 1, .feeder _, m => feederPhysmemPageAlloc T (pageAlloc d) d m

/-- A call through a `page_free` pointer on manager `m`. -/
def pageFree : ℕ → Vfuncs → ℕ → ℕ → PhysmemProg (Except PhysmemError Unit)
  | 0, _, _, _ => Prog.fault .callDepth
  | d + 1, .common, m, addr => commonPhysmemPageFree T d m addr
  | d + 1, .feeder _, m, addr => feederPhysmemPageFree (pageFree d) m addr

/-- `physmem_page_alloc`. -/
def physmemPageAlloc (d m : ℕ) : PhysmemProg (Except PhysmemError ℕ) := do
  let p ← getMgr m
  pageAlloc T d p.v m

/-- `physmem_page_free`. -/
def physmemPageFree (d m : ℕ) (addr : ℕ) :
    PhysmemProg (Except PhysmemError Unit) := do
  let p ← getMgr m
  pageFree T d p.v m addr

/-! ## The conversions of the boot allocator -/

/-- `i686_physmem_page_to_phys`: index times page size, in 32 bits. -/
def i686PhysmemPageToPhys (page : ℕ) : ℕ := wrap32 (page * 4096)

/-- `i686_physmem_phys_to_page`: the page array is indexed by frame number. -/
def i686PhysmemPhysToPage (addr : ℕ) : ℕ := addr / 4096

/-- The conversions of `i686_physmem.c`, faithful on the pages of a 4 GiB address space. -/
def i686PageTable : PageTable where
  pageToPhys := i686PhysmemPageToPhys
  physToPage := i686PhysmemPhysToPage
  managed p := p < 2 ^ 20
  physToPage_pageToPhys p hp := by
    have h : p * 4096 < 2 ^ 32 := by
      change p < 2 ^ 20 at hp
      omega
    simp [i686PhysmemPhysToPage, i686PhysmemPageToPhys, wrap32_of_lt h]

end Akaris
