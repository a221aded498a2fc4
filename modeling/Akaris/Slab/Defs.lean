import Akaris.Cpu

/-!
# The slab allocator

`common/slab.c`: caches of equally sized objects, carved out of one-page slabs.

A slab keeps its own free list, an array of `num_total + 1` pointers of which the last is `NULL`,
and hands out the entry `first_free` points to.  `kmem_cache_free` does not look for the slab an
object came from: it stores the object in the free list of the slab that heads `slabs_partial`, or
`slabs_full` when no slab is partial.

`Kmem` is the memory of one cache: the `struct kmem_cache`, the slab headers by address, and the
machine underneath.  The singly linked `SLIST`s are lists of slab addresses, of which the code only
ever uses the heads.  A pointer into a free list is its index.
-/

namespace Akaris

variable {ε σ : Type}

/-- The values of `kmem_error_t` that `common_kmem_cache_init` returns, but for `KMEM_SUCCESS`. -/
inductive KmemError
  | invalid
  deriving DecidableEq, Repr

/-- Why slab code does not return. -/
inductive KmemFault (ε : Type)
  /-- `assert(s != NULL)` in `kmem_initialize_slab`. -/
  | assertSlab
  /-- `assert(s->n_pages != 0)` in `kmem_initialize_slab`. -/
  | assertNPages
  /-- `assert(cache->objsize != 0)` in `kmem_initialize_slab`. -/
  | assertObjsize
  /-- `assert(n_elements > 0)` in `kmem_initialize_slab`. -/
  | assertNElements
  /-- The division by `cache->objsize + sizeof(void *)`. -/
  | divideByZero
  /-- `assert(obj != NULL)` in `common_kmem_cache_alloc` and `common_kmem_cache_free`. -/
  | assertObj
  /-- `assert(0)` in `common_kmem_cache_free`. -/
  | assertNotReached
  /-- An access before or behind a free list. -/
  | outOfBounds
  /-- `SLIST_REMOVE_HEAD` on an empty list. -/
  | nullDereference
  /-- The machine stopped. -/
  | env (e : ε)
  deriving DecidableEq, Repr

/-- A `struct kmem_slab`.  `firstFree` is the index that `first_free` points to. -/
structure KmemSlab where
  numTotal : ℕ
  nPages : ℕ
  firstFree : ℕ
  freelist : List ℕ
  deriving DecidableEq, Repr

/-- A `struct kmem_cache`. -/
structure KmemCache (ε σ : Type) where
  objsize : ℕ
  used : ℕ
  cpu : Cpu ε σ
  slabsFull : List ℕ
  slabsPartial : List ℕ
  slabsEmpty : List ℕ
  ctor : Option (ℕ → Prog ε σ Unit)
  dtor : Option (ℕ → Prog ε σ Unit)

/-- A cache, the slab headers in memory by address, and the machine. -/
structure Kmem (ε σ : Type) where
  cache : KmemCache ε σ
  slab : ℕ → KmemSlab
  env : σ

/-- Slab code. -/
abbrev KmemProg (ε σ α : Type) := Prog (KmemFault ε) (Kmem ε σ) α

/-- Store a slab header. -/
def Kmem.setSlab (k : Kmem ε σ) (s : ℕ) (slab : KmemSlab) : Kmem ε σ :=
  { k with slab := Function.update k.slab s slab }

@[simp] lemma Kmem.setSlab_cache (k : Kmem ε σ) (s : ℕ) (v : KmemSlab) :
    (k.setSlab s v).cache = k.cache := rfl

@[simp] lemma Kmem.setSlab_slab (k : Kmem ε σ) (s : ℕ) (v : KmemSlab) :
    (k.setSlab s v).slab = Function.update k.slab s v := rfl

@[simp] lemma Kmem.setSlab_setSlab (k : Kmem ε σ) (s : ℕ) (v w : KmemSlab) :
    (k.setSlab s v).setSlab s w = k.setSlab s w := by
  simp [Kmem.setSlab]

/-- Code of the machine, called from slab code. -/
def callEnv {α : Type} (x : Prog ε σ α) : KmemProg ε σ α :=
  Prog.zoom Kmem.env (fun e k => { k with env := e }) KmemFault.env x

/-- `SLIST_REMOVE_HEAD`. -/
def slistRemoveHead (head : List ℕ) : KmemProg ε σ (List ℕ) :=
  match head with
  | [] => Prog.fault .nullDereference
  | _ :: rest => pure rest

/-- A call through `cache->ctor` or `cache->dtor`, when there is one. -/
def callHook (hook : Option (ℕ → Prog ε σ Unit)) (obj : ℕ) : KmemProg ε σ Unit :=
  match hook with
  | none => pure ()
  | some f => callEnv (f obj)

/-! ## Setting up a slab -/

/-- `sizeof(struct kmem_slab)`: four pointers and integers, and an array of length 0. -/
def sizeofKmemSlab : ℕ := 16

/-- `sizeof(void *)`. -/
def sizeofPtr : ℕ := 4

/-- `n_elements`, as long as the divisor does not wrap to 0. -/
def nElements (size objsize : ℕ) : ℕ :=
  sub32 (sub32 size sizeofKmemSlab) sizeofPtr / wrap32 (objsize + sizeofPtr)

/-- The loop of `kmem_initialize_slab` that lists the objects from `cur_obj` on. -/
def fillFreelist (objsize : ℕ) : (n curObj : ℕ) → List ℕ
  | 0, _ => []
  | n + 1, curObj => curObj :: fillFreelist objsize n (wrap32 (curObj + objsize))

/-- The address of the first of `n` objects, which lie at the end of the slab. -/
def firstObj (s size objsize n : ℕ) : ℕ := sub32 (wrap32 (s + size)) (wrap32 (objsize * n))

/-- `kmem_initialize_slab`. -/
def kmemInitializeSlab (s : ℕ) : KmemProg ε σ Unit := do
  let cache ← Prog.gets Kmem.cache
  let slab ← Prog.gets fun k => k.slab s
  Prog.assert (s ≠ 0) .assertSlab
  Prog.assert (slab.nPages ≠ 0) .assertNPages
  Prog.assert (cache.objsize ≠ 0) .assertObjsize
  let size := wrap32 (slab.nPages * cache.cpu.physmemPageSize)
  Prog.assert (wrap32 (cache.objsize + sizeofPtr) ≠ 0) .divideByZero
  let n := nElements size cache.objsize
  -- `n_elements` is an `int`, so a quotient of 2^31 or more is negative
  Prog.assert (0 < n ∧ n < 2 ^ 31) .assertNElements
  Prog.update fun k => k.setSlab s
    { slab with
      numTotal := n
      firstFree := 0
      freelist := fillFreelist cache.objsize n (firstObj s size cache.objsize n) ++ [0] }

/-! ## Allocating and freeing -/

/-- The first half of `common_kmem_cache_alloc`: the slab to allocate from, which then heads
`slabs_partial`. -/
def kmemCacheFindSlab : KmemProg ε σ (Option ℕ) := do
  let cache ← Prog.gets Kmem.cache
  match cache.slabsPartial, cache.slabsEmpty with
  | s :: _, _ => return some s
  | [], s :: rest =>
      Prog.update fun k => { k with cache :=
        { cache with slabsEmpty := rest, slabsPartial := s :: cache.slabsPartial } }
      return some s
  | [], [] =>
      match (← callEnv (cache.cpu.virtmemKernelAlloc 1)) with
      | .error _ => return none
      | .ok vaddr =>
          match (← callEnv cache.cpu.physmemPageAlloc) with
          | .error _ => return none
          | .ok paddr =>
              let _ ← callEnv (cache.cpu.virtmemKernelMapVirtToPhys paddr vaddr)
              Prog.update fun k => k.setSlab vaddr { k.slab vaddr with nPages := 1 }
              kmemInitializeSlab vaddr
              Prog.update fun k => { k with cache :=
                { k.cache with slabsPartial := vaddr :: k.cache.slabsPartial } }
              return some vaddr

/-- The end of `common_kmem_cache_alloc`: the object is zeroed, constructed and counted. -/
def kmemCacheHandOut (obj : ℕ) : KmemProg ε σ (Option ℕ) := do
  let cache ← Prog.gets Kmem.cache
  callEnv (cache.cpu.memset obj 0 cache.objsize)
  callHook cache.ctor obj
  Prog.update fun k => { k with cache := { k.cache with used := wrap32 (k.cache.used + 1) } }
  return some obj

/-- The second half of `common_kmem_cache_alloc`: take an object of the slab. -/
def kmemCacheTakeObject (s : ℕ) : KmemProg ε σ (Option ℕ) := do
  let slab ← Prog.gets fun k => k.slab s
  match slab.freelist[slab.firstFree]? with
  | none => Prog.fault .outOfBounds
  | some obj =>
      Prog.assert (obj ≠ 0) .assertObj
      Prog.update fun k => k.setSlab s { slab with firstFree := slab.firstFree + 1 }
      match slab.freelist[slab.firstFree + 1]? with
      | none => Prog.fault .outOfBounds
      | some next =>
          if next = 0 then
            let cache ← Prog.gets Kmem.cache
            let rest ← slistRemoveHead cache.slabsPartial
            Prog.update fun k => { k with cache :=
              { cache with slabsPartial := rest, slabsFull := s :: cache.slabsFull } }
          kmemCacheHandOut obj

/-- `common_kmem_cache_alloc`; `none` is `NULL`. -/
def commonKmemCacheAlloc : KmemProg ε σ (Option ℕ) := do
  match (← kmemCacheFindSlab) with
  | none => return none
  | some s => kmemCacheTakeObject s

/-- The second half of `common_kmem_cache_free`: put the object into the free list of the slab `s`,
which heads `slabs_partial`. -/
def kmemCachePutObject (s obj : ℕ) : KmemProg ε σ Unit := do
  let cache ← Prog.gets Kmem.cache
  callHook cache.dtor obj
  let slab ← Prog.gets fun k => k.slab s
  match slab.firstFree with
  | 0 => Prog.fault .outOfBounds
  | i + 1 =>
      Prog.update fun k => k.setSlab s
        { slab with firstFree := i, freelist := slab.freelist.set i obj }
      Prog.update fun k => { k with cache := { k.cache with used := sub32 k.cache.used 1 } }
      if i = 0 then
        let cache ← Prog.gets Kmem.cache
        let rest ← slistRemoveHead cache.slabsPartial
        Prog.update fun k => { k with cache :=
          { cache with slabsPartial := rest, slabsEmpty := s :: cache.slabsEmpty } }

/-- `common_kmem_cache_free`. -/
def commonKmemCacheFree (obj : ℕ) : KmemProg ε σ Unit := do
  Prog.assert (obj ≠ 0) .assertObj
  let cache ← Prog.gets Kmem.cache
  match cache.slabsPartial, cache.slabsFull with
  | s :: _, _ => kmemCachePutObject s obj
  | [], s :: rest =>
      Prog.update fun k => { k with cache :=
        { cache with slabsFull := rest, slabsPartial := s :: cache.slabsPartial } }
      kmemCachePutObject s obj
  | [], [] => Prog.fault .assertNotReached

/-- `MIN_CACHE_SIZE`. -/
def minCacheSize : ℕ := 1

/-- `common_kmem_cache_init`: the hooks are stored even when the size is refused. -/
def commonKmemCacheInit (k : KmemCache ε σ) (c : Cpu ε σ) (size : ℕ)
    (ctor dtor : Option (ℕ → Prog ε σ Unit)) : Except KmemError Unit × KmemCache ε σ :=
  if size < minCacheSize then (.error .invalid, { k with ctor, dtor })
  else
    (.ok (),
      { objsize := size, used := 0, cpu := c
        slabsFull := [], slabsPartial := [], slabsEmpty := [], ctor, dtor })

end Akaris
