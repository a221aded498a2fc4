import Akaris.Physmem.Defs

/-!
# The boot free lists

`i686/i686_physmem.c`: `i686_create_initial` walks the memory map of the boot loader, rounds each
region to pages, makes room for the page structures behind the kernel with `virtmem_brk` and puts
the pages of usable regions on two lists, those below 1 MiB on `bootlist`.  `i686_prune_memory` then
takes the pages up to the kernel end off their lists.

A page is named by its number, which is its index in the array of page structures.  The lists are
lists of insertions, the latest first.  `virtmem_brk` is reduced to the limit it keeps; the page
table entries it writes are those of the identity map.  What `LIST_REMOVE` does to a page that is
on neither list depends on what the page structure happens to hold, so it is a parameter.
-/

namespace Akaris

/-- An entry of the multiboot memory map, without its `size`, which the code does not read. -/
structure MemoryMapEntry where
  baseAddrLow : ℕ
  baseAddrHigh : ℕ
  lengthLow : ℕ
  lengthHigh : ℕ
  type : ℕ
  deriving DecidableEq, Repr

/-- Why the boot code does not return. -/
inductive BootFault
  /-- `while (1);` on a region that needs more than 32 bits. -/
  | moreThan32Bits
  /-- `LIST_REMOVE` of a page whose links were never set. -/
  | strayRemove
  deriving DecidableEq, Repr

/-- The static `i686_physmem`, as far as booting fills it in. -/
structure I686Physmem where
  freelist : List ℕ
  bootlist : List ℕ
  freePages : ℕ
  totalPages : ℕ
  startAddress : ℕ
  lastAddress : ℕ
  deriving DecidableEq, Repr

/-- The physical memory manager and the limit of the identity map. -/
structure Boot where
  physmem : I686Physmem
  identitymapLimit : ℕ
  deriving DecidableEq, Repr

/-- Boot code. -/
abbrev BootProg (α : Type) := Prog BootFault Boot α

/-- `highstart`, where the kernel half begins. -/
def highstart : ℕ := 0xC0000000

/-- `PAGE_SIZE`. -/
def pageSize : ℕ := 4096

/-- `sizeof(struct physmem_page)`: two links and a pointer. -/
def sizeofPhysmemPage : ℕ := 12

/-- `i686_brk`: the old limit, and the new one unless it is lower. -/
def virtmemBrk (newend : ℕ) : BootProg ℕ := do
  let oldlimit ← Prog.gets Boot.identitymapLimit
  if newend < oldlimit then
    return oldlimit
  else
    Prog.update fun s => { s with identitymapLimit := newend }
    return oldlimit

/-- `LIST_INSERT_HEAD(&i686_physmem.p.bootlist, &table[page], pages)`. -/
def insertBootlist (page : ℕ) : BootProg Unit :=
  Prog.update fun s =>
    { s with physmem := { s.physmem with bootlist := page :: s.physmem.bootlist } }

/-- `LIST_INSERT_HEAD(&i686_physmem.p.freelist, &table[page], pages)`. -/
def insertFreelist (page : ℕ) : BootProg Unit :=
  Prog.update fun s =>
    { s with physmem := { s.physmem with freelist := page :: s.physmem.freelist } }

/-- The loop over the pages of a usable region: `n` pages from `curpage` on.  It returns
`free_pages`. -/
def insertPages : (n curpage freePages : ℕ) → BootProg ℕ
  | 0, _, freePages => return freePages
  | n + 1, curpage, freePages => do
      if wrap32 (curpage * pageSize) < 0x100000 then
        insertBootlist curpage
        insertPages n (curpage + 1) freePages
      else
        insertFreelist curpage
        insertPages n (curpage + 1) (wrap32 (freePages + 1))

/-- `startpage` of an entry. -/
def startpage (entry : MemoryMapEntry) : ℕ :=
  wrap32 (entry.baseAddrLow + (pageSize - 1)) / pageSize

/-- `lastpage` of an entry, clamped to `startpage`. -/
def lastpage (entry : MemoryMapEntry) : ℕ :=
  let last := wrap32 (entry.baseAddrLow + entry.lengthLow + (pageSize - 1)) / pageSize
  if last < startpage entry then startpage entry else last

/-- The loop of `i686_create_initial` over the memory map, with its local variables. -/
def createInitialLoop (table : ℕ) :
    (entries : List MemoryMapEntry) → (totalPages freePages position : ℕ) → BootProg Unit
  | [], _, _, _ => return ()
  | entry :: entries, totalPages, freePages, position => do
      Prog.assert (entry.baseAddrHigh = 0 ∧ entry.lengthHigh = 0) .moreThan32Bits
      let (freePages, position) ←
        if entry.type = 1 then do
          let position := wrap32 (table + sizeofPhysmemPage * (lastpage entry + 1))
          let _ ← virtmemBrk position
          let freePages ←
            insertPages (lastpage entry + 1 - startpage entry) (startpage entry) freePages
          pure (freePages, position)
        else pure (freePages, position)
      let totalPages := wrap32 (totalPages + (lastpage entry - startpage entry + 1))
      Prog.update fun s => { s with physmem := { s.physmem with
        freePages := freePages, totalPages := totalPages, lastAddress := position } }
      createInitialLoop table entries totalPages freePages position

/-- `i686_create_initial`. -/
def i686CreateInitial (entries : List MemoryMapEntry) : BootProg Unit := do
  let table ← virtmemBrk 0
  Prog.update fun s => { s with physmem := { s.physmem with startAddress := table } }
  createInitialLoop table entries 0 0 0

/-- `LIST_REMOVE(&table[page], pages)`, with `stray` for a page on neither list. -/
def listRemove (stray : ℕ → BootProg Unit) (page : ℕ) : BootProg Unit := do
  let p ← Prog.gets Boot.physmem
  if page ∈ p.bootlist ∨ page ∈ p.freelist then
    Prog.update fun s => { s with physmem := { s.physmem with
      bootlist := s.physmem.bootlist.erase page, freelist := s.physmem.freelist.erase page } }
  else
    stray page

/-- The loop of `i686_prune_memory`: `n` pages from `curpage` on.  It returns `forcemarked`. -/
def pruneLoop (stray : ℕ → BootProg Unit) : (n curpage forcemarked : ℕ) → BootProg ℕ
  | 0, _, forcemarked => return forcemarked
  | n + 1, curpage, forcemarked => do
      let physpage := sub32 curpage (highstart / pageSize)
      listRemove stray (i686PhysmemPhysToPage (wrap32 (physpage * pageSize)))
      pruneLoop stray n (curpage + 1) (wrap32 (forcemarked + 1))

/-- `i686_prune_memory`. -/
def i686PruneMemory (stray : ℕ → BootProg Unit) : BootProg ℕ := do
  let startKernel := highstart / pageSize
  let limit ← virtmemBrk 0
  let endKernel := wrap32 (limit + (pageSize - 1)) / pageSize
  let forcemarked ← pruneLoop stray (endKernel + 1 - startKernel) startKernel 0
  Prog.update fun s => { s with physmem := { s.physmem with
    freePages := sub32 s.physmem.freePages forcemarked } }
  return forcemarked

/-- The two `LIST_INIT`s of `i686_physmem_alloc`. -/
def initLists (s : Boot) : Boot :=
  { s with physmem := { s.physmem with freelist := [], bootlist := [] } }

/-- `i686_physmem_alloc`. -/
def i686PhysmemAlloc (stray : ℕ → BootProg Unit) (entries : List MemoryMapEntry) :
    BootProg Unit := do
  Prog.update initLists
  i686CreateInitial entries
  let _ ← i686PruneMemory stray
  return ()

end Akaris
