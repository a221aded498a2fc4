import Akaris.Cpu
import Akaris.Lib.Word

/-!
# Address spaces

`common/address_space.c`: an address space is a page directory and a list of memory regions.

`init_region` rounds a requested range to pages and adds it to the list unless it collides with a
region there, and `get_region` looks an address up.  `memory_region_map` enters the pages of a
region into the page tables, one after the other, through the `kvirt` of the running CPU.  The
functions reached through `mr->v` and `as->v` are the `common_…` ones that the constructors of
`i686_address_space.c` install.

`AsMem` is one address space and the region structures in memory, by address; the `regions` list
of the address space is the list of their addresses.
-/

namespace Akaris

variable {ε σ : Type}

/-- The values of `address_space_err_t` other than `AS_SUCCESS`, which is `Except.ok`. -/
inductive AddressSpaceErr
  | notfound
  | invalid
  | oom
  | used
  deriving DecidableEq, Repr

/-- Why address space code does not return. -/
inductive AsFault (ε : Type)
  /-- A failing `assert`, which loops forever. -/
  | assertFailed
  /-- A call through the function table of a null pointer. -/
  | nullDereference
  /-- A variable read before anything was stored to it. -/
  | uninitialised
  /-- The machine stopped. -/
  | env (e : ε)
  deriving DecidableEq, Repr

/-- A `struct memory_region`; the flags are one bit wide. -/
structure MemoryRegion where
  start : ℕ
  length : ℕ
  writable : Bool
  executable : Bool
  deriving DecidableEq, Repr

/-- A `struct address_space`. -/
structure AddressSpace where
  pd : ℕ
  regions : List ℕ
  deriving DecidableEq, Repr

/-- An address space and the memory of the region structures. -/
structure AsMem where
  as : AddressSpace
  region : ℕ → MemoryRegion

/-- Code that works on regions and not on the machine. -/
abbrev AsProg (ε α : Type) := Prog (AsFault ε) AsMem α

/-! ## Regions -/

/-- `memory_region_compare_to_location`: 0 when the address is in the region, -1 when it is below,
1 when it is above. -/
def memoryRegionCompareToLocation (mr : MemoryRegion) (addr : ℕ) : ℤ :=
  if addr < mr.start then -1
  else if wrap32 (mr.start + mr.length) ≤ addr then 1
  else 0

/-- `memory_region_compare_to_region`: 0 when the regions overlap, -1 when `other` is below `mr`,
1 when it is above. -/
def memoryRegionCompareToRegion (mr other : MemoryRegion) : ℤ :=
  if wrap32 (other.start + other.length) ≤ mr.start then -1
  else if wrap32 (mr.start + mr.length) ≤ other.start then 1
  else 0

/-- The loop of `memory_region_available_in_address_space`. -/
def availableIn (region : ℕ → MemoryRegion) (mr : ℕ) : List ℕ → Bool
  | [] => true
  | m :: rest =>
      if memoryRegionCompareToRegion (region mr) (region m) = 0 then false
      else availableIn region mr rest

/-- `memory_region_available_in_address_space`. -/
def memoryRegionAvailableInAddressSpace (s : AsMem) (mr : ℕ) : Bool :=
  availableIn s.region mr s.as.regions

/-- `common_memory_region_set_location`. -/
def commonMemoryRegionSetLocation (mr start len : ℕ) :
    AsProg ε (Except AddressSpaceErr Unit) := do
  if mr = 0 then
    return .error .invalid
  else
    Prog.update fun s => { s with
      region := Function.update s.region mr { s.region mr with start := start, length := len } }
    return .ok ()

/-- `common_memory_region_set_flags`, built without `NO_W_X`.  The arguments are `int`s, of which
the one-bit fields keep the lowest bit. -/
def commonMemoryRegionSetFlags (mr : ℕ) (writable executable : BitVec 32) :
    AsProg ε (Except AddressSpaceErr Unit) := do
  if mr = 0 then
    return .error .invalid
  else if executable &&& writable ≠ 0 then
    return .error .invalid
  else
    Prog.update fun s => { s with
      region := Function.update s.region mr { s.region mr with
        writable := writable.getLsbD 0, executable := executable.getLsbD 0 } }
    return .ok ()

/-- The rounding of the start address: a signed remainder is subtracted. -/
def roundStart (pgsize start : ℕ) : ℕ :=
  ofLong ((start : ℤ) - (toLong start).tmod pgsize)

/-- The rounding of the length. -/
def roundLen (pgsize len : ℕ) : ℕ :=
  wrap32 (sub32 (wrap32 (len + pgsize)) 1 / pgsize * pgsize)

/-- `common_address_space_init_region`. -/
def commonAddressSpaceInitRegion (c : Cpu ε σ) (mr start len : ℕ) :
    AsProg ε (Except AddressSpaceErr Unit) := do
  if start = 0 then
    return .error .invalid
  else
    let start := roundStart c.physmemPageSize start
    let len := roundLen c.physmemPageSize len
    Prog.assert (mr ≠ 0) .nullDereference
    match (← commonMemoryRegionSetLocation mr start len) with
    | .error _ => return .error .invalid
    | .ok () =>
        let s ← Prog.gets id
        if memoryRegionAvailableInAddressSpace s mr then
          Prog.update fun s => { s with as := { s.as with regions := mr :: s.as.regions } }
          return .ok ()
        else
          return .error .used

/-- The loop of `common_address_space_get_region`. -/
def findRegion (region : ℕ → MemoryRegion) (loc : ℕ) : List ℕ → Option ℕ
  | [] => none
  | i :: rest =>
      if memoryRegionCompareToLocation (region i) loc = 0 then some i
      else findRegion region loc rest

/-- `common_address_space_get_region`: its result, and what it stores to `*mr`, where `none` is no
store and 0 the null pointer. -/
def commonAddressSpaceGetRegion (as mr loc : ℕ) :
    AsProg ε (Except AddressSpaceErr Unit × Option ℕ) := do
  if mr = 0 then
    return (.error .invalid, none)
  else if as = 0 then
    return (.error .invalid, some 0)
  else
    match (← Prog.gets fun s => findRegion s.region loc s.as.regions) with
    | some i => return (.ok (), some i)
    | none => return (.error .notfound, some 0)

/-! ## Mapping -/

/-- Code of the machine, called from address space code. -/
def callVirtmem {α : Type} (x : Prog ε σ α) : Prog (AsFault ε) σ α :=
  Prog.zoom id (fun e _ => e) AsFault.env x

/-- The loop of `memory_region_map_exact`, `nPages` pages from `cur` and `p` on. -/
def memoryRegionMapExact (c : Cpu ε σ) (pd flags : ℕ) :
    (nPages cur p : ℕ) → Prog (AsFault ε) σ (Except AddressSpaceErr Unit)
  | 0, _, _ => return .ok ()
  | n + 1, cur, p => do
      let _ ← callVirtmem (c.virtmemUserMapPage pd cur p)
      let _ ← callVirtmem (c.virtmemUserSetPageFlags pd cur flags)
      memoryRegionMapExact c pd flags n (wrap32 (cur + c.physmemPageSize))
        (wrap32 (p + c.physmemPageSize))

/-- The loop of `memory_region_map_allocate`.  `p` is the variable of that name, `none` before the
first store to it: a failing `virtmem_user_get_page` leaves it as it was. -/
def memoryRegionMapAllocate (c : Cpu ε σ) (pd flags : ℕ) :
    (nPages cur : ℕ) → (p : Option ℕ) → Prog (AsFault ε) σ (Except AddressSpaceErr Unit)
  | 0, _, _ => return .ok ()
  | n + 1, cur, p => do
      let p := match (← callVirtmem (c.virtmemUserGetPage pd cur)) with
        | .ok paddr => some paddr
        | .error _ => p
      match p with
      | none => Prog.fault .uninitialised
      | some 0 =>
          match (← callVirtmem c.physmemPageAlloc) with
          | .error _ => return .error .oom
          | .ok paddr =>
              let _ ← callVirtmem (c.virtmemUserMapPage pd cur paddr)
              let _ ← callVirtmem (c.virtmemUserSetPageFlags pd cur flags)
              memoryRegionMapAllocate c pd flags n (wrap32 (cur + c.physmemPageSize)) (some paddr)
      | some paddr =>
          let _ ← callVirtmem (c.virtmemUserSetPageFlags pd cur flags)
          memoryRegionMapAllocate c pd flags n (wrap32 (cur + c.physmemPageSize)) (some paddr)

/-- The flags that `common_memory_region_map` passes on. -/
def regionPageFlags (mr : MemoryRegion) : ℕ :=
  virtmemPageReadable ||| (if mr.writable then virtmemPageWritable else 0) |||
    (if mr.executable then virtmemPageExecutable else 0)

/-- `common_memory_region_map`. -/
def commonMemoryRegionMap (c : Cpu ε σ) (as : AddressSpace) (mr : MemoryRegion) (paddr : ℕ) :
    Prog (AsFault ε) σ (Except AddressSpaceErr Unit) := do
  Prog.assert (mr.start % c.physmemPageSize = 0) .assertFailed
  Prog.assert (mr.length % c.physmemPageSize = 0) .assertFailed
  Prog.assert (paddr = 0 ∨ paddr % c.physmemPageSize = 0) .assertFailed
  let nPages := mr.length / c.physmemPageSize
  if paddr = 0 then
    memoryRegionMapAllocate c as.pd (regionPageFlags mr) nPages mr.start none
  else
    memoryRegionMapExact c as.pd (regionPageFlags mr) nPages mr.start paddr

end Akaris
