import Akaris.Slab.Defs
import Akaris.Boot.Defs
import Akaris.Scheduler.Defs
import Akaris.Virtmem.Machine

/-!
# Virtual memory on the i686

`i686_virtmem.c` and the constructor of `i686_address_space.c`.

The kernel half of every page directory, entries 768 to 1023, points to the 256 tables
`kernel_pts`, which are one array `kernel_flatpt` of the page table entries of all kernel pages.
`kernel_alloc` takes the first entry there that is not present; `kernel_free` does nothing.  The
code that changes a page directory or table does so through such a kernel page, a *window*, that it
first maps to the frame.

A `virtmem_md_context_t` is the physical address of a page directory.  `Option` stands for a
variable or field that may not have been initialised.
-/

namespace Akaris

variable {ρ : Type} (K : KernelImage) (L : Localmem ρ)

/-- `n_kernel_pde`. -/
def nKernelPde : ℕ := 256

/-- `n_start_pde`. -/
def nStartPde : ℕ := 768

/-- `pg_size`, and `physmem_page_size` of the i686. -/
def pgSize : ℕ := 4096

/-- `bittestl`. -/
def bittestl (field mask : ℕ) : ℕ := if field &&& mask = mask then 1 else 0

/-! ## Page table entries -/

def i686PagePresent : ℕ := 1
def i686PageWritable : ℕ := 2
def i686PageWritethrough : ℕ := 4
def i686PageCachedisable : ℕ := 8
def i686PageGlobal : ℕ := 16
def i686PageUser : ℕ := 32

/-- `i686_set_pte`. -/
def i686SetPte (p : Word) (addr flags : ℕ) : Word :=
  let p := Entry.physAddr.set p (addr >>> 12)
  let p := Entry.present.set p (bittestl flags i686PagePresent)
  let p := Entry.writable.set p (bittestl flags i686PageWritable)
  let p := Entry.writeThrough.set p (bittestl flags i686PageWritethrough)
  let p := Entry.cacheDisable.set p (bittestl flags i686PageCachedisable)
  let p := Entry.user.set p (bittestl flags i686PageUser)
  let p := Entry.accessed.set p 0
  let p := Entry.pteDirty.set p 0
  let p := Entry.pteZero.set p 0
  let p := Entry.global.set p (bittestl flags i686PageGlobal)
  Entry.avail.set p 0

/-- `i686_set_pde`. -/
def i686SetPde (p : Word) (loc flags : ℕ) : Word :=
  let p := Entry.physAddr.set p (loc >>> 12)
  let p := Entry.present.set p (bittestl flags i686PagePresent)
  let p := Entry.writable.set p (bittestl flags i686PageWritable)
  let p := Entry.writeThrough.set p (bittestl flags i686PageWritethrough)
  let p := Entry.cacheDisable.set p (bittestl flags i686PageCachedisable)
  let p := Entry.user.set p (bittestl flags i686PageUser)
  let p := Entry.accessed.set p 0
  let p := Entry.pdeSize.set p 0
  let p := Entry.pdeZero.set p 0
  let p := Entry.global.set p (bittestl flags i686PageGlobal)
  Entry.avail.set p 0

/-- The page table entry `kernel_flatpt[i]`. -/
def kernelFlatpt (mem : PhysMem) (i : ℕ) : Word := mem (K.kernelPts + i / 1024) (i % 1024)

/-- Store to `kernel_flatpt[i]`. -/
def setKernelFlatpt (mem : PhysMem) (i : ℕ) (x : Word) : PhysMem :=
  mem.write (K.kernelPts + i / 1024) (i % 1024) x

/-- Read a variable. -/
def readVar (x : Option ℕ) : MachineProg ρ ℕ :=
  match x with
  | none => Prog.fault .uninitialised
  | some v => pure v

/-- `physmem_page_alloc(cpu()->localmem, 0, &address)`. -/
def localmemPageAlloc : MachineProg ρ (Except PhysmemError ℕ) := do
  let r ← Prog.gets fun s => L.pageAlloc s.localmem
  Prog.update fun s => { s with localmem := r.2 }
  return r.1

/-- `physmem_page_free(cpu()->localmem, address)`. -/
def localmemPageFree (address : ℕ) : MachineProg ρ (Except PhysmemError Unit) := do
  let r ← Prog.gets fun s => L.pageFree address s.localmem
  Prog.update fun s => { s with localmem := r.2 }
  return r.1

/-! ## The kernel half -/

/-- The loop of `i686_kernel_alloc`: the first of `n` entries from `pgindex` on that is not
present. -/
def scanFlatpt (mem : PhysMem) : (n pgindex : ℕ) → Option ℕ
  | 0, _ => none
  | n + 1, pgindex =>
      if Entry.present.get (kernelFlatpt K mem pgindex) = 0 then some pgindex
      else scanFlatpt mem n (pgindex + 1)

/-- `i686_kernel_alloc`. -/
def i686KernelAlloc (nPages : ℕ) : MachineProg ρ (Except VirtmemError ℕ) := do
  Prog.assert (nPages = 1) .assertFailed
  match (← Prog.gets fun s => scanFlatpt K s.mem (1024 * nKernelPde) 0) with
  | none => return .error .oom
  | some pgindex =>
      Prog.update fun s =>
        let pte := Entry.present.set (kernelFlatpt K s.mem pgindex) 1
        { s with mem := setKernelFlatpt K s.mem pgindex (Entry.writable.set pte 1) }
      return .ok (wrap32 (pgindex * pgSize + highstart))

/-- `i686_kernel_free`. -/
def i686KernelFree (_addr : ℕ) : MachineProg ρ (Except VirtmemError Unit) := return .ok ()

/-- `i686_virt_to_pte`; the pointer is the index into `kernel_flatpt`. -/
def i686VirtToPte (addr : ℕ) : MachineProg ρ ℕ := do
  let pagenum := addr / pgSize
  let nPde := sub32 (pagenum / 1024) nStartPde
  Prog.assert (nPde < nKernelPde) .assertFailed
  return sub32 pagenum (nStartPde * 1024)

/-- `i686_kernel_virt_to_phys`. -/
def i686KernelVirtToPhys (addr : ℕ) : MachineProg ρ (Except VirtmemError ℕ) := do
  let pte ← i686VirtToPte addr
  let x ← Prog.gets fun s => kernelFlatpt K s.mem pte
  if Entry.present.get x = 0 then
    return .error .notpresent
  else
    return .ok (Entry.physAddr.get x <<< 12)

/-- `i686_kernel_map_virt_to_phys`. -/
def i686KernelMapVirtToPhys (p addr : ℕ) : MachineProg ρ (Except VirtmemError Unit) := do
  let pte ← i686VirtToPte addr
  let x ← Prog.gets fun s => kernelFlatpt K s.mem pte
  Prog.assert (Entry.present.get x = 1) .assertFailed
  Prog.update fun s => { s with
    mem := setKernelFlatpt K s.mem pte (i686SetPte x p (i686PageWritable ||| i686PagePresent)) }
  return .ok ()

/-- The loop of `i686_set_kernel_pdes`, `n` entries from `curPde` on. -/
def i686SetKernelPdes (pd : ℕ) : (n curPde : ℕ) → MachineProg ρ Unit
  | 0, _ => pure ()
  | n + 1, curPde => do
      modifyWord (pd + 4 * curPde) fun x =>
        i686SetPde x ((K.kernelPts + (curPde - nStartPde)) * pgSize)
          (i686PagePresent ||| i686PageWritable)
      i686SetKernelPdes pd n (curPde + 1)

/-! ## Walking page tables -/

/-- `i686_initialize_pde`: `pde` is the address of the page directory entry. -/
def i686InitializePde (pde : ℕ) : MachineProg ρ ℤ := do
  match (← localmemPageAlloc L) with
  | .error _ => return -1
  | .ok pdePhys =>
      match (← i686KernelAlloc K 1) with
      | .error _ => return -1
      | .ok vaddr =>
          let _ ← i686KernelMapVirtToPhys K pdePhys vaddr
          memset vaddr 0 pgSize
          let _ ← i686KernelFree vaddr
          modifyWord pde fun x =>
            i686SetPde x pdePhys (i686PagePresent ||| i686PageWritable ||| i686PageUser)
          return 0

/-- A `struct i686_pagewalk_context`. -/
structure I686PagewalkContext where
  pagestart : ℕ
  pt : Option ℕ
  pd : Option ℕ

/-- `i686_pagewalk_init`. -/
def i686PagewalkInit (physpd : ℕ) : MachineProg ρ (ℤ × I686PagewalkContext) := do
  match (← i686KernelAlloc K 1) with
  | .error _ => return (-1, ⟨0, none, none⟩)
  | .ok pt =>
      match (← i686KernelAlloc K 1) with
      | .error _ =>
          let _ ← i686KernelFree pt
          return (-1, ⟨0, some pt, none⟩)
      | .ok pd =>
          let _ ← i686KernelMapVirtToPhys K physpd pd
          return (0, ⟨0, some pt, some pd⟩)

/-- `i686_pagewalk_done`. -/
def i686PagewalkDone (ctx : I686PagewalkContext) : MachineProg ρ Unit := do
  let _ ← i686KernelFree (← readVar ctx.pt)
  let _ ← i686KernelFree (← readVar ctx.pd)
  return ()

/-- `i686_pagewalk`: the context it leaves, and the address of the page table entry. -/
def i686Pagewalk (ctx : I686PagewalkContext) (addr : ℕ) :
    MachineProg ρ (I686PagewalkContext × ℕ) := do
  let ptsize := pgSize * 1024
  let pdindex := addr / ptsize
  let ptindex := addr % ptsize / pgSize
  let pd ← readVar ctx.pd
  if Entry.present.get (← loadWord (pd + 4 * pdindex)) = 0 then
    let _ ← i686InitializePde K L (pd + 4 * pdindex)
  if wrap32 (pdindex * ptsize + ptindex) ≠ ctx.pagestart then
    let pde ← loadWord (pd + 4 * pdindex)
    let pt ← readVar ctx.pt
    let _ ← i686KernelMapVirtToPhys K (wrap32 (Entry.physAddr.get pde * pgSize)) pt
    return ({ ctx with pagestart := wrap32 (pdindex * ptsize + ptindex) }, pt + 4 * ptindex)
  else
    let pt ← readVar ctx.pt
    return (ctx, pt + 4 * ptindex)

/-- `i686_setup_kernelspace`. -/
def i686SetupKernelspace (ctx : ℕ) : MachineProg ρ (Except VirtmemError Unit) := do
  let (_, pgw) ← i686PagewalkInit K ctx
  i686SetKernelPdes K (← readVar pgw.pd) nKernelPde nStartPde
  i686PagewalkDone pgw
  return .ok ()

/-! ## User pages -/

/-- `i686_user_get_page`. -/
def i686UserGetPage (c vaddr : ℕ) : MachineProg ρ (Except VirtmemError ℕ) := do
  let (err, ctx) ← i686PagewalkInit K c
  if err < 0 then
    return .error .oom
  else
    let (ctx, l) ← i686Pagewalk K L ctx vaddr
    let x ← loadWord l
    i686PagewalkDone ctx
    return .ok (wrap32 (Entry.physAddr.get x * pgSize))

/-- `i686_user_map_page`. -/
def i686UserMapPage (c vaddr p : ℕ) : MachineProg ρ (Except VirtmemError Unit) := do
  let (err, ctx) ← i686PagewalkInit K c
  if err < 0 then
    return .error .oom
  else
    let (ctx, l) ← i686Pagewalk K L ctx vaddr
    modifyWord l fun x => Entry.physAddr.set x (p / pgSize)
    i686PagewalkDone ctx
    return .ok ()

/-- `i686_user_set_page_flags`. -/
def i686UserSetPageFlags (c vaddr flags : ℕ) : MachineProg ρ (Except VirtmemError Unit) := do
  let (_, ctx) ← i686PagewalkInit K c
  let (ctx, l) ← i686Pagewalk K L ctx vaddr
  modifyWord l fun x =>
    let x := Entry.writable.set x (bittestl flags virtmemPageWritable)
    let x := Entry.user.set x (bittestl flags virtmemPageReadable)
    Entry.present.set x 1
  i686PagewalkDone ctx
  return .ok ()

/-! ## The i686 as a `struct cpu` -/

/-- The functions that `cpu()->kvirt` and `cpu()->localmem` hold on the i686. -/
def i686Cpu : Cpu MachineFault (Machine ρ) where
  physmemPageSize := pgSize
  physmemPageSize_lt := by norm_num [pgSize]
  physmemPageAlloc := localmemPageAlloc L
  physmemPageFree := localmemPageFree L
  virtmemKernelAlloc := i686KernelAlloc K
  virtmemKernelFree := i686KernelFree
  virtmemKernelMapVirtToPhys := i686KernelMapVirtToPhys K
  virtmemUserGetPage := i686UserGetPage K L
  virtmemUserMapPage := i686UserMapPage K L
  virtmemUserSetPageFlags := i686UserSetPageFlags K L
  virtmemUserSetupKernelspace := i686SetupKernelspace K
  memset := memset
  memcpy := memcpy

/-! ## Objects -/

/-- `i686_memory_region_ctor`, which stores the function table. -/
def i686MemoryRegionCtor (_mr : ℕ) : MachineProg ρ Unit := pure ()

/-- `memory_region_alloc` on `mr_cache`: what it stores to `*mr`, where 0 is the null pointer.  The
test for a failed allocation asks whether that variable has an address. -/
def memoryRegionAlloc : KmemProg MachineFault (Machine ρ) (Except AddressSpaceErr ℕ) := do
  match (← commonKmemCacheAlloc) with
  | none => return .ok 0
  | some mr => return .ok mr

/-- `i686_init_thread_vfuncs`, which stores the function table. -/
def i686InitThreadVfuncs (_t : ℕ) : MachineProg ρ Unit := pure ()

/-- `sizeof(struct thread)`: eight pointers and words. -/
def sizeofThread : ℕ := 32

/-- The `struct i686_context` of a new thread, from `gs` to `ss`. -/
def newContext : List Word :=
  [0x23, 0x23, 0x23, 0x23, 0, 0, 0, 0, 0, 0, 0, 0, 0, 0, 0x1000000, 0x1B, 0, 0, 0x23]

/-- `sizeof(struct i686_thread)`. -/
def sizeofI686Thread : ℕ := sizeofThread + 4 * 19

/-- Store words, one after the other. -/
def storeWords (v : ℕ) : List Word → MachineProg ρ Unit
  | [] => pure ()
  | x :: xs => do
      modifyWord v fun _ => x
      storeWords (wrap32 (v + 4)) xs

/-- `i686_thread_alloc` on `thread_cache`, which stores the context through the pointer it got. -/
def i686ThreadAlloc : KmemProg MachineFault (Machine ρ) (Except SchedulerErr ℕ) := do
  match (← commonKmemCacheAlloc) with
  | none => Prog.fault (.env .nullDereference)
  | some t =>
      callEnv (storeWords (wrap32 (t + sizeofThread)) newContext)
      return .ok t

/-! ## Address spaces -/

/-- `i686_address_space_ctor`, which does not check that it got a page. -/
def i686AddressSpaceCtor (as : ℕ) : MachineProg ρ Unit := do
  match (← localmemPageAlloc L) with
  | .error _ => Prog.fault .uninitialised
  | .ok p =>
      Prog.update fun s => { s with as := Function.update s.as as { s.as as with pd := p } }
      match (← i686KernelAlloc K 1) with
      | .error _ => return ()
      | .ok vaddr =>
          let _ ← i686KernelMapVirtToPhys K p vaddr
          memset vaddr 0 pgSize
          let _ ← i686KernelFree vaddr
          return ()

/-- `address_space_alloc` on `as_cache`.  The test for a failed allocation asks whether the variable
that is to hold the result has an address, so the null pointer is used. -/
def addressSpaceAlloc :
    KmemProg MachineFault (Machine ρ) (Except AddressSpaceErr ℕ) := do
  match (← commonKmemCacheAlloc) with
  | none => Prog.fault (.env .nullDereference)
  | some as =>
      callEnv (Prog.update fun s =>
        { s with as := Function.update s.as as { s.as as with regions := [] } })
      let pd ← callEnv (Prog.gets fun s => (s.as as).pd)
      let _ ← callEnv (i686SetupKernelspace K pd)
      return .ok as

end Akaris
