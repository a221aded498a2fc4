import Akaris.Slab.Stock

/-!
# Runs of a slab cache

`SlabInv` adds to the accounting of `Akaris/Slab/Stock.lean` what the three lists are for: a slab
is filed under `slabs_full`, `slabs_partial` or `slabs_empty` by how far its `first_free` has got.
Both `commonKmemCacheAlloc` and `commonKmemCacheFree` work on the slab that heads `slabs_partial`
and move it when it becomes full or empty, which is right *because* it is the head:
`kmemCacheTakeObject_wp` and `kmemCachePutObject_wp`.

* **`slab_cache_invariant`** — the invariant holds in every state of every run, and no assertion
  of the allocator is ever reached.
* **`empty_slabs_are_empty`** — what holds of the *pages* of the slabs on `slabs_empty` as long as
  every object is given back while its own slab is the one that takes it.
-/

namespace Akaris

variable {ε σ : Type}

/-! ## Filing -/

/-- Every slab is on the list its `first_free` index says. -/
structure Filed (n : ℕ) (slab : ℕ → KmemSlab) (full part empty : List ℕ) : Prop where
  full : ∀ s ∈ full, (slab s).firstFree = n
  part : ∀ s ∈ part, 0 < (slab s).firstFree ∧ (slab s).firstFree < n
  empty : ∀ s ∈ empty, (slab s).firstFree = 0

/-- A slab that is on none of the lists can be changed. -/
lemma Filed.update {n s : ℕ} {slab : ℕ → KmemSlab} {full part empty : List ℕ}
    (h : Filed n slab full part empty) (hs : s ∉ full ++ part ++ empty) (v : KmemSlab) :
    Filed n (Function.update slab s v) full part empty := by
  have hne : ∀ t ∈ full ++ part ++ empty, Function.update slab s v t = slab t := by
    intro t ht
    refine Function.update_of_ne ?_ _ _
    rintro rfl
    exact hs ht
  refine ⟨fun t ht => ?_, fun t ht => ?_, fun t ht => ?_⟩
  · rw [hne t (by simp [ht])]
    exact h.full t ht
  · rw [hne t (by simp [ht])]
    exact h.part t ht
  · rw [hne t (by simp [ht])]
    exact h.empty t ht

/-- The slabs of a cache. -/
def KmemCache.slabs (c : KmemCache ε σ) : List ℕ := c.slabsFull ++ c.slabsPartial ++ c.slabsEmpty

/-- What does not change while the slab at the head of `slabs_partial` is being worked on: `s` is
that slab, the others are filed. -/
structure Working (tidy : Prop) (c : Cpu ε σ) (size : ℕ) (pg out : List ℕ) (s : ℕ)
    (rest : List ℕ) (k : Kmem ε σ) : Prop where
  cpu : k.cache.cpu = c
  objsize : k.cache.objsize = size
  stock : Stock tidy c.physmemPageSize size pg out k.slab
  part : k.cache.slabsPartial = s :: rest
  filed : Filed (nElements c.physmemPageSize size) k.slab k.cache.slabsFull rest
    k.cache.slabsEmpty
  slabs : k.cache.slabs.Perm pg
  used : k.cache.used = out.length

/-- **The invariant of a slab cache.** -/
structure SlabInv (tidy : Prop) (c : Cpu ε σ) (size : ℕ) (pg out : List ℕ) (k : Kmem ε σ) :
    Prop where
  cpu : k.cache.cpu = c
  objsize : k.cache.objsize = size
  stock : Stock tidy c.physmemPageSize size pg out k.slab
  filed : Filed (nElements c.physmemPageSize size) k.slab k.cache.slabsFull
    k.cache.slabsPartial k.cache.slabsEmpty
  slabs : k.cache.slabs.Perm pg
  used : k.cache.used = out.length

section Steps

variable {tidy : Prop} {c : Cpu ε σ} {size : ℕ} {pg out rest : List ℕ} {s obj : ℕ} {k : Kmem ε σ}

lemma Working.mem (h : Working tidy c size pg out s rest k) : s ∈ pg := by
  refine h.slabs.mem_iff.mp ?_
  rw [KmemCache.slabs, h.part]
  simp

lemma Working.notMem (hfit : Fits c.physmemPageSize size)
    (h : Working tidy c size pg out s rest k) :
    s ∉ k.cache.slabsFull ++ rest ++ k.cache.slabsEmpty := by
  have hnd : k.cache.slabs.Nodup := h.slabs.nodup_iff.mpr (h.stock.nodup hfit)
  rw [KmemCache.slabs, h.part, List.append_assoc, List.cons_append, List.nodup_middle,
    List.nodup_cons] at hnd
  rw [List.append_assoc]
  exact hnd.1

/-- The machine changed under the cache. -/
lemma SlabInv.env (h : SlabInv tidy c size pg out k) (e : σ) :
    SlabInv tidy c size pg out { k with env := e } :=
  ⟨h.cpu, h.objsize, h.stock, h.filed, h.slabs, h.used⟩

lemma Working.env (h : Working tidy c size pg out s rest k) (e : σ) :
    Working tidy c size pg out s rest { k with env := e } :=
  ⟨h.cpu, h.objsize, h.stock, h.part, h.filed, h.slabs, h.used⟩

/-- Code of the machine, whatever it does, leaves the cache alone. -/
lemma callEnv_wp {α : Type} (x : Prog ε σ α) :
    Prog.wp (callEnv x) (fun _ k' => ∃ e, k' = { k with env := e }) (fun e => ∃ e', e = .env e')
      k := by
  simp only [callEnv, Prog.wp_zoom]
  exact Prog.wp_mono (Prog.wp_self _ _) (fun _ e _ => ⟨e, rfl⟩) (fun e _ => ⟨e, rfl⟩)

lemma callHook_wp (hook : Option (ℕ → Prog ε σ Unit)) (obj : ℕ) :
    Prog.wp (callHook hook obj) (fun _ k' => ∃ e, k' = { k with env := e })
      (fun e => ∃ e', e = .env e') k := by
  cases hook with
  | none => exact ⟨k.env, rfl⟩
  | some f => exact callEnv_wp (f obj)

lemma kmemCacheHandOut_wp (obj : ℕ) :
    Prog.wp (kmemCacheHandOut obj)
      (fun r k' => r = some obj ∧ ∃ e, k' = { k with
        cache := { k.cache with used := wrap32 (k.cache.used + 1) }, env := e })
      (fun e => ∃ e', e = .env e') k := by
  simp only [kmemCacheHandOut, Prog.wp_bind, Prog.wp_gets]
  refine Prog.wp_mono (callEnv_wp _) ?_ fun _ he => he
  rintro _ _ ⟨e, rfl⟩
  rw [Prog.wp_bind]
  refine Prog.wp_mono (callHook_wp _ obj) ?_ fun _ he => he
  rintro _ _ ⟨e', rfl⟩
  exact ⟨rfl, e', rfl⟩

/-! ## Allocating -/

/-- The page that the next successful allocation sets up as a slab: none when there is a slab to
allocate from. -/
def newSlab (k : Kmem ε σ) : List ℕ :=
  match k.cache.slabsPartial, k.cache.slabsEmpty with
  | [], [] =>
      match (k.cache.cpu.virtmemKernelAlloc 1).run k.env with
      | .ok (.ok vaddr, e) =>
          match k.cache.cpu.physmemPageAlloc.run e with
          | .ok (.ok _, _) => [vaddr]
          | _ => []
      | _ => []
  | _, _ => []

/-- A new slab page, if one is supplied, is a page of the address space that shares nothing with
the slabs `pg`. -/
def FreshSupply (size : ℕ) (pg : List ℕ) (k : Kmem ε σ) : Prop :=
  ∀ vaddr ∈ newSlab k, Placed size vaddr ∧ ∀ t ∈ pg, Apart size vaddr t

/-- Setting up a slab fires no assertion and makes all its objects free. -/
lemma kmemInitializeSlab_wp (hfit : Fits c.physmemPageSize size) (hcpu : k.cache.cpu = c)
    (hsize : k.cache.objsize = size) (hpages : (k.slab s).nPages = 1)
    (hplaced : Placed c.physmemPageSize s) :
    Prog.wp (kmemInitializeSlab s)
      (fun _ k' => ∃ v, k' = k.setSlab s v ∧ v.firstFree = 0 ∧
        freeSlots v = slabObjects c.physmemPageSize size s ∧
        SlabOk (nElements c.physmemPageSize size) v)
      (fun _ => False) k := by
  have hP : wrap32 (1 * c.physmemPageSize) = c.physmemPageSize := by
    rw [Nat.one_mul]
    exact wrap32_of_lt (by have := c.physmemPageSize_lt; omega)
  have hslot : wrap32 (size + sizeofPtr) ≠ 0 := by
    have h1 := hfit.one
    have h2 := hfit.size_lt
    simp only [sizeofKmemSlab, sizeofPtr] at h1 ⊢
    rw [wrap32_of_lt (by omega)]
    omega
  have hn := hfit.nElements_pos
  have hn' := hfit.nElements_lt
  have hpos := hfit.pos
  simp only [kmemInitializeSlab, Prog.wp_bind, Prog.wp_gets, Prog.wp_assert, Prog.wp_update, hcpu,
    hsize, hpages, hP]
  have hne : ∀ x ∈ slabObjects c.physmemPageSize size s, x ≠ 0 := by
    intro x hx
    have hwithin := slabObjects_within hfit hplaced hx
    have hs := hplaced.1
    omega
  let v : KmemSlab := ⟨nElements c.physmemPageSize size, 1, 0,
    slabObjects c.physmemPageSize size s ++ [0]⟩
  have hlen : (slabObjects c.physmemPageSize size s).length = nElements c.physmemPageSize size :=
    fillFreelist_length ..
  obtain ⟨hfree, hok⟩ := SlabOk.new (v := v) hne rfl hlen.symm rfl
  refine ⟨fun _ => ⟨fun _ => ⟨fun _ => ⟨fun _ => ⟨fun _ => ⟨v, rfl, rfl, hfree, hlen ▸ hok⟩, ?_⟩, ?_⟩,
    ?_⟩, ?_⟩, ?_⟩
  · exact absurd ⟨hn, hn'⟩
  · exact absurd hslot
  · exact absurd hpos.ne'
  · exact absurd one_ne_zero
  · exact absurd hplaced.1

/-- The slab that was just set up heads `slabs_partial`. -/
lemma SlabInv.working_new (hfit : Fits c.physmemPageSize size) (h : SlabInv tidy c size pg out k)
    (hpart : k.cache.slabsPartial = []) (hplaced : Placed c.physmemPageSize s)
    (hapart : ∀ t ∈ pg, Apart c.physmemPageSize s t) {v : KmemSlab}
    (hok : SlabOk (nElements c.physmemPageSize size) v)
    (hfree : freeSlots v = slabObjects c.physmemPageSize size s) {e : σ} :
    Working tidy c size (s :: pg) out s []
      { cache := { k.cache with slabsPartial := s :: k.cache.slabsPartial }
        slab := Function.update k.slab s v
        env := e } := by
  have hstock := h.stock.add hfit hplaced hapart hok hfree
  have hs : s ∉ k.cache.slabsFull ++ k.cache.slabsPartial ++ k.cache.slabsEmpty := fun hs =>
    (List.nodup_cons.mp (hstock.nodup hfit)).1 (h.slabs.mem_iff.mp hs)
  have hfiled := h.filed.update hs v
  rw [hpart] at hfiled
  refine ⟨h.cpu, h.objsize, hstock, by simp [hpart], hfiled, ?_, h.used⟩
  refine List.Perm.trans ?_ (h.slabs.cons s)
  simp only [KmemCache.slabs, List.append_assoc, List.cons_append]
  exact List.perm_middle

/-- **Finding a slab** to allocate from. -/
lemma kmemCacheFindSlab_wp (hfit : Fits c.physmemPageSize size)
    (h : SlabInv tidy c size pg out k) (hfresh : FreshSupply c.physmemPageSize pg k) :
    Prog.wp kmemCacheFindSlab
      (fun r k' => match r with
        | none => SlabInv tidy c size pg out k'
        | some s => ∃ rest, Working tidy c size (newSlab k ++ pg) out s rest k' ∧
            (k'.slab s).firstFree < nElements c.physmemPageSize size)
      (fun e => ∃ e', e = .env e') k := by
  simp only [kmemCacheFindSlab, Prog.wp_bind, Prog.wp_gets]
  cases hpart : k.cache.slabsPartial with
  | cons s rest =>
      have hnew : newSlab k = [] := by simp [newSlab, hpart]
      have hfiled := h.filed
      rw [hpart] at hfiled
      obtain ⟨⟨-, hlt⟩, hrest⟩ := List.forall_mem_cons.mp hfiled.part
      simp only [Prog.wp_pure, hnew, List.nil_append]
      exact ⟨rest, ⟨h.cpu, h.objsize, h.stock, hpart, ⟨hfiled.full, hrest, hfiled.empty⟩, h.slabs,
        h.used⟩, hlt⟩
  | nil =>
      cases hempty : k.cache.slabsEmpty with
      | cons s rest =>
          have hnew : newSlab k = [] := by simp [newSlab, hpart, hempty]
          have hfiled := h.filed
          rw [hpart, hempty] at hfiled
          obtain ⟨hzero, hrest⟩ := List.forall_mem_cons.mp hfiled.empty
          simp only [Prog.wp_bind, Prog.wp_update, Prog.wp_pure, hnew, List.nil_append]
          refine ⟨[], ⟨h.cpu, h.objsize, h.stock, rfl, ⟨hfiled.full, hfiled.part, hrest⟩, ?_,
            h.used⟩, ?_⟩
          · refine List.Perm.trans ?_ h.slabs
            simp [KmemCache.slabs, hpart, hempty]
          · rw [hzero]
            exact hfit.nElements_pos
      | nil =>
          simp only [callEnv, Prog.wp_bind, Prog.wp_zoom]
          refine Prog.wp_mono (Prog.wp_self _ _) ?_ fun e _ => ⟨e, rfl⟩
          intro r e halloc
          cases r with
          | error _ => exact h.env e
          | ok vaddr =>
              simp only [Prog.wp_bind, Prog.wp_zoom]
              refine Prog.wp_mono (Prog.wp_self _ _) ?_ fun e _ => ⟨e, rfl⟩
              intro r e' hpage
              cases r with
              | error _ => exact h.env e'
              | ok paddr =>
                  have hnew : newSlab k = [vaddr] := by
                    simp [newSlab, hpart, hempty, halloc, hpage]
                  simp only [Prog.wp_bind, Prog.wp_zoom]
                  refine Prog.wp_mono (Prog.wp_self _ _) ?_ fun e _ => ⟨e, rfl⟩
                  intro r e'' _
                  simp only [Prog.wp_bind, Prog.wp_update]
                  obtain ⟨hplaced, hapart⟩ := hfresh vaddr (by simp [hnew])
                  refine Prog.wp_mono (kmemInitializeSlab_wp hfit h.cpu h.objsize
                    (by simp [Kmem.setSlab]) hplaced) ?_ fun e he => he.elim
                  rintro _ _ ⟨v, rfl, hzero, hfree, hok⟩
                  rw [Prog.wp_bind, Prog.wp_update, Prog.wp_pure, hnew]
                  refine ⟨[], ?_, ?_⟩
                  · rw [Kmem.setSlab_setSlab]
                    exact h.working_new hfit hpart hplaced hapart hok hfree
                  · simp only [Kmem.setSlab, Function.update_self, hzero]
                    exact hfit.nElements_pos

/-- **Taking an object** of the slab at the head of `slabs_partial`. -/
lemma kmemCacheTakeObject_wp (hfit : Fits c.physmemPageSize size)
    (h : Working tidy c size pg out s rest k)
    (hlt : (k.slab s).firstFree < nElements c.physmemPageSize size) :
    Prog.wp (kmemCacheTakeObject s)
      (fun r k' => ∃ obj, r = some obj ∧ obj ∉ out ∧ SlabInv tidy c size pg (obj :: out) k')
      (fun e => ∃ e', e = .env e') k := by
  obtain ⟨obj, next, hobj, hne, hnext, hlast, hslots, hok⟩ := (h.stock.ok s h.mem).take hlt
  have hstock := h.stock.take hfit h.mem hok hslots
  have hfiled := h.filed.update (h.notMem hfit)
    { k.slab s with firstFree := (k.slab s).firstFree + 1 }
  have hfirst : (Function.update k.slab s
      { k.slab s with firstFree := (k.slab s).firstFree + 1 } s).firstFree
        = (k.slab s).firstFree + 1 := by rw [Function.update_self]
  have hout : obj ∉ out := h.stock.not_out hfit h.mem (hslots ▸ List.mem_cons_self)
  have hused : wrap32 (k.cache.used + 1) = (obj :: out).length := by
    rw [h.used, List.length_cons]
    exact wrap32_of_lt (hstock.out_length_lt hfit)
  simp only [kmemCacheTakeObject, Prog.wp_bind, Prog.wp_gets, hobj, Prog.wp_assert, Prog.wp_update,
    hnext]
  refine ⟨fun _ => ?_, fun hn => absurd hne hn⟩
  by_cases hfull : next = 0
  · -- the slab is full now, and it is the head of `slabs_partial`
    simp only [if_pos hfull, Prog.wp_bind, Prog.wp_gets, Kmem.setSlab, h.part, slistRemoveHead,
      Prog.wp_pure, Prog.wp_update]
    refine Prog.wp_mono (kmemCacheHandOut_wp obj) ?_ fun _ he => he
    rintro _ _ ⟨rfl, e, rfl⟩
    refine ⟨obj, rfl, hout, h.cpu, h.objsize, hstock, ?_, ?_, hused⟩
    · exact ⟨List.forall_mem_cons.mpr ⟨hfirst.trans (hlast.mp hfull), hfiled.full⟩, hfiled.part,
        hfiled.empty⟩
    · refine List.Perm.trans ?_ h.slabs
      simp only [KmemCache.slabs, h.part, List.append_assoc, List.cons_append]
      exact List.perm_middle.symm
  · simp only [if_neg hfull]
    refine Prog.wp_mono (kmemCacheHandOut_wp obj) ?_ fun _ he => he
    rintro _ _ ⟨rfl, e, rfl⟩
    have hlt' := mt hlast.mpr hfull
    refine ⟨obj, rfl, hout, h.cpu, h.objsize, hstock, ⟨hfiled.full, ?_, hfiled.empty⟩, ?_, hused⟩
    · simp only [Kmem.setSlab, h.part]
      refine List.forall_mem_cons.mpr ⟨?_, hfiled.part⟩
      rw [Function.update_self]
      exact ⟨Nat.succ_pos _, Nat.lt_of_le_of_ne hlt hlt'⟩
    · exact h.slabs

/-- **Allocating** returns `NULL`, or an object that is not outstanding. -/
theorem commonKmemCacheAlloc_wp (hfit : Fits c.physmemPageSize size)
    (h : SlabInv tidy c size pg out k) (hfresh : FreshSupply c.physmemPageSize pg k) :
    Prog.wp commonKmemCacheAlloc
      (fun r k' => match r with
        | none => SlabInv tidy c size pg out k'
        | some obj => obj ∉ out ∧ SlabInv tidy c size (newSlab k ++ pg) (obj :: out) k')
      (fun e => ∃ e', e = .env e') k := by
  rw [commonKmemCacheAlloc, Prog.wp_bind]
  refine Prog.wp_mono (kmemCacheFindSlab_wp hfit h hfresh) ?_ fun _ he => he
  intro r k' hfound
  cases r with
  | none => exact hfound
  | some s =>
      obtain ⟨rest, hwork, hlt⟩ := hfound
      refine Prog.wp_mono (kmemCacheTakeObject_wp hfit hwork hlt) ?_ fun _ he => he
      rintro _ k'' ⟨obj, rfl, hout, hinv⟩
      exact ⟨hout, hinv⟩

/-! ## Freeing -/

/-- **Putting an object** on the slab at the head of `slabs_partial`. -/
lemma kmemCachePutObject_wp (hfit : Fits c.physmemPageSize size)
    (h : Working tidy c size pg out s rest k) (hpos : 0 < (k.slab s).firstFree) (hobj : obj ∈ out)
    (hpage : tidy → s ≤ obj ∧ obj < s + c.physmemPageSize) :
    Prog.wp (kmemCachePutObject s obj) (fun _ k' => SlabInv tidy c size pg (out.erase obj) k')
      (fun e => ∃ e', e = .env e') k := by
  obtain ⟨i, hi⟩ : ∃ i, (k.slab s).firstFree = i + 1 := ⟨_, (Nat.succ_pred_eq_of_pos hpos).symm⟩
  have hne : obj ≠ 0 := (h.stock.object_range hfit (h.stock.mem_objects hobj)).1.ne'
  obtain ⟨hslots, hok⟩ := (h.stock.ok s h.mem).put hi hne
  have hstock := h.stock.put hfit h.mem hobj hpage hok hslots
  have hfiled := h.filed.update (h.notMem hfit)
    { k.slab s with firstFree := i, freelist := (k.slab s).freelist.set i obj }
  have hfirst : (Function.update k.slab s
      { k.slab s with firstFree := i, freelist := (k.slab s).freelist.set i obj } s).firstFree
        = i := by rw [Function.update_self]
  have hused : sub32 k.cache.used 1 = (out.erase obj).length := by
    have hlen := List.length_pos_of_mem hobj
    have hlt := h.stock.out_length_lt hfit
    rw [h.used, List.length_erase_of_mem hobj]
    exact sub32_of_le hlen hlt
  have hle := (h.stock.ok s h.mem).firstFree
  simp only [kmemCachePutObject, Prog.wp_bind, Prog.wp_gets]
  refine Prog.wp_mono (callHook_wp _ obj) ?_ fun _ he => he
  rintro _ _ ⟨e, rfl⟩
  simp only [Prog.wp_bind, Prog.wp_gets, hi, Prog.wp_update]
  by_cases hempty : i = 0
  · -- the slab is empty now, and it is the head of `slabs_partial`
    simp only [if_pos hempty, Prog.wp_bind, Prog.wp_gets, Kmem.setSlab, h.part, slistRemoveHead,
      Prog.wp_pure, Prog.wp_update, hused]
    refine ⟨h.cpu, h.objsize, hstock, ?_, ?_, rfl⟩
    · exact ⟨hfiled.full, hfiled.part,
        List.forall_mem_cons.mpr ⟨hfirst.trans hempty, hfiled.empty⟩⟩
    · refine List.Perm.trans ?_ h.slabs
      simp only [KmemCache.slabs, h.part, List.append_assoc, List.cons_append]
      exact List.perm_middle.append_left _
  · simp only [if_neg hempty, Prog.wp_pure, Kmem.setSlab, hused]
    refine ⟨h.cpu, h.objsize, hstock, ⟨hfiled.full, ?_, hfiled.empty⟩, h.slabs, rfl⟩
    simp only [h.part]
    refine List.forall_mem_cons.mpr ⟨?_, hfiled.part⟩
    rw [Function.update_self]
    exact ⟨Nat.pos_of_ne_zero hempty, by simp only; omega⟩

/-- The slab that `kmem_cache_free` gives an object to. -/
def freeTarget (k : Kmem ε σ) : Option ℕ := (k.cache.slabsPartial ++ k.cache.slabsFull).head?

/-- `obj` lies in the page of the slab that `kmem_cache_free` would give it to. -/
def FreedAtHome (k : Kmem ε σ) (obj : ℕ) : Prop :=
  ∀ s, freeTarget k = some s → s ≤ obj ∧ obj < s + k.cache.cpu.physmemPageSize

/-- **Freeing** an outstanding object. -/
theorem commonKmemCacheFree_wp (hfit : Fits c.physmemPageSize size)
    (h : SlabInv tidy c size pg out k) (hobj : obj ∈ out) (hhome : tidy → FreedAtHome k obj) :
    Prog.wp (commonKmemCacheFree obj) (fun _ k' => SlabInv tidy c size pg (out.erase obj) k')
      (fun e => ∃ e', e = .env e') k := by
  have hne : obj ≠ 0 := (h.stock.object_range hfit (h.stock.mem_objects hobj)).1.ne'
  simp only [commonKmemCacheFree, Prog.wp_bind, Prog.wp_gets, Prog.wp_assert]
  refine ⟨fun _ => ?_, absurd hne⟩
  cases hpart : k.cache.slabsPartial with
  | cons s rest =>
      have hfiled := h.filed
      rw [hpart] at hfiled
      obtain ⟨⟨hpos, -⟩, hrest⟩ := List.forall_mem_cons.mp hfiled.part
      have hwork : Working tidy c size pg out s rest k :=
        ⟨h.cpu, h.objsize, h.stock, hpart, ⟨hfiled.full, hrest, hfiled.empty⟩, h.slabs, h.used⟩
      refine kmemCachePutObject_wp hfit hwork hpos hobj fun htidy => ?_
      rw [← h.cpu]
      exact hhome htidy s (by simp [freeTarget, hpart])
  | nil =>
      cases hfull : k.cache.slabsFull with
      | cons s rest =>
          have hfiled := h.filed
          rw [hpart, hfull] at hfiled
          obtain ⟨hn, hrest⟩ := List.forall_mem_cons.mp hfiled.full
          have hwork : Working tidy c size pg out s []
              { k with cache := { k.cache with slabsFull := rest, slabsPartial := [s] } } := by
            refine ⟨h.cpu, h.objsize, h.stock, rfl, ⟨hrest, hfiled.part, hfiled.empty⟩, ?_, h.used⟩
            refine List.Perm.trans ?_ h.slabs
            simp only [KmemCache.slabs, hpart, hfull, List.append_assoc, List.cons_append,
              List.nil_append, List.append_nil]
            exact List.perm_middle
          simp only [Prog.wp_bind, Prog.wp_update]
          refine kmemCachePutObject_wp hfit hwork (hn ▸ hfit.nElements_pos) hobj fun htidy => ?_
          rw [← h.cpu]
          exact hhome htidy s (by simp [freeTarget, hpart, hfull])
      | nil =>
          -- all slabs would be on `slabs_empty`, and nothing outstanding
          exfalso
          have hsum := h.stock.out_length
          have hzero : (pg.map fun s => (k.slab s).firstFree).sum = 0 := by
            refine List.sum_eq_zero fun x hx => ?_
            obtain ⟨s, hs, rfl⟩ := List.mem_map.mp hx
            have hmem := h.slabs.mem_iff.mpr hs
            simp only [KmemCache.slabs, hpart, hfull, List.nil_append] at hmem
            exact h.filed.empty s hmem
          have hlen := List.length_pos_of_mem hobj
          omega

end Steps

/-! ## Whole runs -/

/-- A run of a cache: its memory, the objects that are outstanding, and the pages that were set up
as slabs. -/
structure SlabRun (ε σ : Type) where
  k : Kmem ε σ
  out : List ℕ
  pages : List ℕ

/-- One step of a run: the machine changes, or the cache is called.  A call names an outstanding
object when it frees one, and `allowed` can restrict it further. -/
inductive SlabStep (allowed : Kmem ε σ → ℕ → Prop) : SlabRun ε σ → SlabRun ε σ → Prop
  | env {r : SlabRun ε σ} (e : σ) : SlabStep allowed r { r with k := { r.k with env := e } }
  | alloc {r : SlabRun ε σ} {obj : ℕ} {k' : Kmem ε σ} :
      FreshSupply r.k.cache.cpu.physmemPageSize r.pages r.k →
      commonKmemCacheAlloc.run r.k = .ok (some obj, k') →
      SlabStep allowed r { k := k', out := obj :: r.out, pages := newSlab r.k ++ r.pages }
  | allocFails {r : SlabRun ε σ} {k' : Kmem ε σ} :
      FreshSupply r.k.cache.cpu.physmemPageSize r.pages r.k →
      commonKmemCacheAlloc.run r.k = .ok (none, k') →
      SlabStep allowed r { r with k := k' }
  | free {r : SlabRun ε σ} {obj : ℕ} {k' : Kmem ε σ} :
      obj ∈ r.out → allowed r.k obj →
      (commonKmemCacheFree obj).run r.k = .ok ((), k') →
      SlabStep allowed r { k := k', out := r.out.erase obj, pages := r.pages }

/-- A cache that `common_kmem_cache_init` has just initialised. -/
def SlabInit (c : Cpu ε σ) (size : ℕ) (r : SlabRun ε σ) : Prop :=
  (∃ k₀ ctor dtor, commonKmemCacheInit k₀ c size ctor dtor = (.ok (), r.k.cache)) ∧
    r.out = [] ∧ r.pages = []

/-- The states of a cache for objects of `size` bytes. -/
def SlabReachable (c : Cpu ε σ) (size : ℕ) (allowed : Kmem ε σ → ℕ → Prop) :
    SlabRun ε σ → Prop :=
  Reachable (SlabInit c size) (SlabStep allowed)

section Runs

variable {tidy : Prop} {c : Cpu ε σ} {size : ℕ} {allowed : Kmem ε σ → ℕ → Prop}
  {r r' : SlabRun ε σ}

/-- A slab of `size` bytes holds one object of `objsize` bytes. -/
def HoldsOne (size objsize : ℕ) : Prop := sizeofKmemSlab + 2 * sizeofPtr + objsize ≤ size

instance (size objsize : ℕ) : Decidable (HoldsOne size objsize) :=
  inferInstanceAs (Decidable (_ ≤ _))

/-- What an initialised cache looks like. -/
lemma SlabInit.cache (h : SlabInit c size r) : 0 < size ∧ r.k.cache.cpu = c ∧
    r.k.cache.objsize = size ∧ r.k.cache.used = 0 ∧ r.k.cache.slabsFull = [] ∧
    r.k.cache.slabsPartial = [] ∧ r.k.cache.slabsEmpty = [] := by
  obtain ⟨⟨k₀, ctor, dtor, hinit⟩, -, -⟩ := h
  by_cases hsize : size < minCacheSize
  · rw [commonKmemCacheInit, if_pos hsize] at hinit
    exact absurd (Prod.mk.inj hinit).1 (by simp)
  · rw [commonKmemCacheInit, if_neg hsize] at hinit
    rw [← (Prod.mk.inj hinit).2]
    exact ⟨Nat.not_lt.mp hsize, rfl, rfl, rfl, rfl, rfl, rfl⟩

lemma SlabInit.fits (hone : HoldsOne c.physmemPageSize size) (h : SlabInit c size r) :
    Fits c.physmemPageSize size :=
  ⟨h.cache.1, hone, c.physmemPageSize_lt⟩

lemma SlabInv.init (h : SlabInit c size r) : SlabInv tidy c size r.pages r.out r.k := by
  obtain ⟨-, hcpu, hsize, hused, hfull, hpart, hempty⟩ := h.cache
  obtain ⟨-, hout, hpages⟩ := h
  rw [hout, hpages]
  refine ⟨hcpu, hsize, ⟨?_, ?_, ?_, ?_, ?_⟩, ⟨?_, ?_, ?_⟩, ?_, ?_⟩ <;>
    simp [hfull, hpart, hempty, hused, KmemCache.slabs]

/-- **Every step keeps the invariant.** -/
theorem SlabInv.step (hfit : Fits c.physmemPageSize size)
    (hallowed : tidy → ∀ k obj, allowed k obj → FreedAtHome k obj)
    (h : SlabInv tidy c size r.pages r.out r.k) (hs : SlabStep allowed r r') :
    SlabInv tidy c size r'.pages r'.out r'.k := by
  cases hs with
  | env e => exact h.env e
  | alloc hfresh hrun =>
      rw [h.cpu] at hfresh
      have hnext := Prog.wp_run (commonKmemCacheAlloc_wp hfit h hfresh) hrun
      exact hnext.2
  | allocFails hfresh hrun =>
      rw [h.cpu] at hfresh
      have hnext := Prog.wp_run (commonKmemCacheAlloc_wp hfit h hfresh) hrun
      exact hnext
  | @free obj k' hobj hok hrun =>
      have hfree := commonKmemCacheFree_wp hfit h hobj fun htidy => hallowed htidy r.k obj hok
      have hnext := Prog.wp_run hfree hrun
      exact hnext

/-- The object size of a run that has begun fits as well. -/
lemma SlabReachable.fits (hone : HoldsOne c.physmemPageSize size)
    (hr : SlabReachable c size allowed r) : Fits c.physmemPageSize size := by
  induction hr with
  | base h => exact h.fits hone
  | tail _ _ ih => exact ih

lemma SlabReachable.inv (hone : HoldsOne c.physmemPageSize size)
    (hallowed : tidy → ∀ k obj, allowed k obj → FreedAtHome k obj)
    (hr : SlabReachable c size allowed r) : SlabInv tidy c size r.pages r.out r.k := by
  have hfit := SlabReachable.fits hone hr
  exact Reachable.invariant (I := fun r => SlabInv tidy c size r.pages r.out r.k)
    (fun _ h => SlabInv.init h) (fun _ _ h hs => h.step hfit hallowed hs) hr

/-- A slab is on the list that its `first_free` index says, and on no other. -/
lemma SlabInv.filed_iff (hfit : Fits c.physmemPageSize size)
    (h : SlabInv tidy c size r.pages r.out r.k) {s : ℕ} (hs : s ∈ r.pages) :
    (s ∈ r.k.cache.slabsFull ↔ (r.k.slab s).firstFree = (r.k.slab s).numTotal) ∧
    (s ∈ r.k.cache.slabsEmpty ↔ (r.k.slab s).firstFree = 0) ∧
    (s ∈ r.k.cache.slabsPartial ↔
      0 < (r.k.slab s).firstFree ∧ (r.k.slab s).firstFree < (r.k.slab s).numTotal) := by
  have hmem := h.slabs.mem_iff.mpr hs
  have hpos := hfit.nElements_pos
  rw [(h.stock.ok s hs).numTotal]
  simp only [KmemCache.slabs, List.mem_append] at hmem
  have hfull := h.filed.full s
  have hpart := h.filed.part s
  have hempty := h.filed.empty s
  refine ⟨⟨hfull, fun heq => ?_⟩, ⟨hempty, fun heq => ?_⟩, ⟨hpart, fun heq => ?_⟩⟩
  · rcases hmem with (hmem | hmem) | hmem
    · exact hmem
    · exact absurd heq (hpart hmem).2.ne
    · exact absurd ((hempty hmem).symm.trans heq) hpos.ne
  · rcases hmem with (hmem | hmem) | hmem
    · exact absurd ((hfull hmem).symm.trans heq) hpos.ne'
    · exact absurd heq (hpart hmem).1.ne'
    · exact hmem
  · rcases hmem with (hmem | hmem) | hmem
    · exact absurd (hfull hmem) heq.2.ne
    · exact hmem
    · exact absurd (hempty hmem) heq.1.ne'

/-- **The slab cache invariant.**  In every state of every run of a cache whose slabs hold at least
one object: (a) the outstanding objects and the free slots of all slabs are together all objects
of all slabs, each once; (b) `used` counts the outstanding objects, and so do the `first_free`
indices; (c) every slab is on one list, the one its `first_free` index says; (d) an allocation
returns an object that is not outstanding, and neither an allocation nor a free of an outstanding
object stops, unless the machine underneath does. -/
theorem slab_cache_invariant (hone : HoldsOne c.physmemPageSize size)
    (hr : SlabReachable c size (fun _ _ => True) r) :
    ((r.out ++ r.pages.flatMap fun s => freeSlots (r.k.slab s)).Perm
        (r.pages.flatMap (slabObjects c.physmemPageSize size)) ∧
      (r.pages.flatMap (slabObjects c.physmemPageSize size)).Nodup) ∧
    (r.k.cache.used = r.out.length ∧
      r.k.cache.used = (r.pages.map fun s => (r.k.slab s).firstFree).sum) ∧
    (r.k.cache.slabs.Perm r.pages ∧ r.pages.Nodup ∧ ∀ s ∈ r.pages,
      (s ∈ r.k.cache.slabsFull ↔ (r.k.slab s).firstFree = (r.k.slab s).numTotal) ∧
      (s ∈ r.k.cache.slabsEmpty ↔ (r.k.slab s).firstFree = 0) ∧
      (s ∈ r.k.cache.slabsPartial ↔
        0 < (r.k.slab s).firstFree ∧ (r.k.slab s).firstFree < (r.k.slab s).numTotal)) ∧
    (FreshSupply c.physmemPageSize r.pages r.k →
      (∀ obj k', commonKmemCacheAlloc.run r.k = .ok (some obj, k') → obj ∉ r.out) ∧
      ∀ e, commonKmemCacheAlloc.run r.k = .error e → ∃ e', e = .env e') ∧
    (∀ obj ∈ r.out, ∀ e, (commonKmemCacheFree obj).run r.k = .error e → ∃ e', e = .env e') := by
  have hfit := SlabReachable.fits hone hr
  have h : SlabInv False c size r.pages r.out r.k := SlabReachable.inv hone False.elim hr
  refine ⟨⟨h.stock.objects, h.stock.objects_nodup hfit⟩, ⟨h.used, h.used.trans h.stock.out_length⟩,
    ⟨h.slabs, h.stock.nodup hfit, fun s hs => h.filed_iff hfit hs⟩, fun hfresh => ?_, ?_⟩
  · have halloc := commonKmemCacheAlloc_wp hfit h hfresh
    refine ⟨fun obj k' hrun => ?_, fun e hrun => ?_⟩
    · have hnext := Prog.wp_run halloc hrun
      exact hnext.1
    · have hstop := Prog.wp_stop halloc hrun
      exact hstop
  · intro obj hobj e hrun
    have hstop := Prog.wp_stop (commonKmemCacheFree_wp hfit h hobj False.elim) hrun
    exact hstop

end Runs

/-! ## A machine to run a cache on -/

/-- A cache on the machine `pageByPage`, just initialised. -/
def pageByPageRun (size : ℕ) : SlabRun Empty ℕ where
  k := {
    cache := {
      objsize := size, used := 0, cpu := pageByPage
      slabsFull := [], slabsPartial := [], slabsEmpty := []
      ctor := none, dtor := none }
    slab := fun _ => ⟨0, 0, 0, []⟩
    env := 1 }
  out := []
  pages := []

lemma pageByPageRun_init {size : ℕ} (h : 0 < size) :
    SlabInit pageByPage size (pageByPageRun size) := by
  refine ⟨⟨(pageByPageRun size).k.cache, none, none, ?_⟩, rfl, rfl⟩
  rw [commonKmemCacheInit, if_neg (by simp only [minCacheSize]; omega)]
  rfl

section PageByPage

variable {size : ℕ} {allowed : Kmem Empty ℕ → ℕ → Prop} {r : SlabRun Empty ℕ}

/-- An allocation on that machine that sets up the page `vaddr` as a slab and returns `obj`. -/
lemma pageByPage_alloc (vaddr obj : ℕ) (hr : SlabReachable pageByPage size allowed r)
    (hpage : r.k.cache.cpu.physmemPageSize = 4096) (hnew : newSlab r.k = [vaddr])
    (hplaced : Placed 4096 vaddr) (hapart : ∀ t ∈ r.pages, Apart 4096 vaddr t)
    (hrun : (commonKmemCacheAlloc.run r.k).toOption.map Prod.fst = some (some obj)) :
    SlabReachable pageByPage size allowed
      { k := Prog.after commonKmemCacheAlloc r.k
        out := obj :: r.out
        pages := vaddr :: r.pages } := by
  have hfresh : FreshSupply r.k.cache.cpu.physmemPageSize r.pages r.k := by
    intro v hv
    rw [hnew, List.mem_singleton] at hv
    rw [hpage, hv]
    exact ⟨hplaced, hapart⟩
  have h := hr.tail (.alloc hfresh (Prog.run_after hrun))
  rwa [hnew] at h

/-- A cache for objects of 4072 bytes, of which a slab holds one, after the first allocation. -/
def firstRun : SlabRun Empty ℕ where
  k := Prog.after commonKmemCacheAlloc (pageByPageRun 4072).k
  out := [4120]
  pages := [4096]

/-- The same after the second allocation, with two full slabs. -/
def secondRun : SlabRun Empty ℕ where
  k := Prog.after commonKmemCacheAlloc firstRun.k
  out := [8216, 4120]
  pages := [8192, 4096]

lemma firstRun_reachable : SlabReachable pageByPage 4072 allowed firstRun :=
  pageByPage_alloc (r := pageByPageRun 4072) 4096 4120
    (.base (pageByPageRun_init (by norm_num))) rfl rfl ⟨by decide, by decide⟩
    (by simp [pageByPageRun]) (by decide +kernel)

lemma secondRun_reachable : SlabReachable pageByPage 4072 allowed secondRun :=
  pageByPage_alloc (r := firstRun) 8192 8216 firstRun_reachable (by decide +kernel)
    (by decide +kernel) ⟨by decide, by decide⟩ (by simp [firstRun, Apart]) (by decide +kernel)

end PageByPage

/-- The invariant with two slabs of one object each, both outstanding. -/
theorem slab_cache_invariant_two : ∃ r : SlabRun Empty ℕ,
    SlabReachable pageByPage 4072 (fun _ _ => True) r ∧ r.k.cache.slabsFull = [8192, 4096] ∧
      r.k.cache.used = r.out.length :=
  ⟨secondRun, secondRun_reachable, by decide +kernel,
    (slab_cache_invariant (by decide) secondRun_reachable).2.1.1⟩

/-! ## The pages of empty slabs -/

/-- No object that lies in the page of a slab on `slabs_empty` is outstanding. -/
def EmptySlabsAreEmpty (r : SlabRun ε σ) : Prop :=
  ∀ s ∈ r.k.cache.slabsEmpty, ∀ obj ∈ r.out,
    ¬(s ≤ obj ∧ obj < s + r.k.cache.cpu.physmemPageSize)

section EmptySlabs

variable {c : Cpu ε σ} {size : ℕ} {r : SlabRun ε σ}

/-- **Empty slabs are empty** in every state of a run in which every object is freed while the slab
in whose page it lies is the one that `kmem_cache_free` gives it to. -/
theorem empty_slabs_are_empty (hone : HoldsOne c.physmemPageSize size)
    (hr : SlabReachable c size FreedAtHome r) : EmptySlabsAreEmpty r := by
  have hfit := SlabReachable.fits hone hr
  have h : SlabInv True c size r.pages r.out r.k := SlabReachable.inv hone (fun _ _ _ h => h) hr
  intro s hempty obj hobj hpage
  rw [h.cpu] at hpage
  have hs : s ∈ r.pages := h.slabs.mem_iff.mp (by simp [KmemCache.slabs, hempty])
  have hown := h.stock.mem_slabObjects_of_page hfit hs (h.stock.mem_objects hobj) hpage
  -- all free slots of the slab are taken by its own objects, so none of them is left
  have hok := h.stock.ok s hs
  have hsub : freeSlots (r.k.slab s) ⊆ slabObjects c.physmemPageSize size s :=
    h.stock.home trivial s hs
  have hnd : (freeSlots (r.k.slab s)).Nodup :=
    nodup_of_flatMap_nodup (f := fun s => freeSlots (r.k.slab s))
      ((h.stock.nodup_all hfit).sublist (List.sublist_append_right _ _)) hs
  have hlen : (freeSlots (r.k.slab s)).length = (slabObjects c.physmemPageSize size s).length := by
    rw [hok.freeSlots_length, h.filed.empty s hempty, slabObjects, fillFreelist_length]
    rfl
  have hperm := (hnd.subperm hsub).perm_of_length_le hlen.ge
  exact h.stock.not_out hfit hs (hperm.mem_iff.mpr hown) hobj

/-- Two slabs of one object each.  The object of the second slab is freed while that heads
`slabs_full`: it is empty, and the object of the first slab stays outstanding. -/
theorem empty_slabs_are_empty_two : ∃ r : SlabRun Empty ℕ,
    SlabReachable pageByPage 4072 FreedAtHome r ∧ r.k.cache.slabsEmpty = [8192] ∧
      r.out = [4120] ∧ EmptySlabsAreEmpty r := by
  have hhome : FreedAtHome secondRun.k 8216 := by
    have htarget : freeTarget secondRun.k = some 8192 := by decide +kernel
    intro s hs
    obtain rfl : 8192 = s := by rwa [htarget, Option.some.injEq] at hs
    decide +kernel
  have hmem : 8216 ∈ secondRun.out := by decide
  have hr := secondRun_reachable.tail (.free hmem hhome (Prog.run_after (by decide +kernel)))
  exact ⟨_, hr, by decide +kernel, rfl, empty_slabs_are_empty (by decide) hr⟩

/-- Two slabs of one object each.  The object of the first slab is freed while the second heads
`slabs_full`, which takes it and counts as empty, with its own object still outstanding. -/
theorem empty_slabs_not_empty :
    ¬ ∀ r : SlabRun Empty ℕ, SlabReachable pageByPage 4072 (fun _ _ => True) r →
      EmptySlabsAreEmpty r := by
  intro hall
  have h₀ : SlabReachable pageByPage 4072 (fun _ _ => True) secondRun := secondRun_reachable
  have hmem : 4120 ∈ secondRun.out := by decide
  have hr := h₀.tail (.free hmem trivial (Prog.run_after (by decide +kernel)))
  exact hall _ hr 8192 (by decide +kernel) 8216 (by decide) (by decide +kernel)

end EmptySlabs

end Akaris
