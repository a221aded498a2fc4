import Akaris.Physmem.Shortfall
import Akaris.Virtmem.Machine

/-!
# The physical memory manager of the machine

`Localmem` is what the virtual memory code knows about the manager in `cpu()->localmem`.  Here it is
connected to the code of `physmem.c`: `ManagedMemory` is a source with feeders over it whose free
lists are in order, one of them being `cpu()->localmem`, and **`managedLocalmem`** runs
`physmem_page_alloc` and `physmem_page_free` on it.  The source may count too few pages, as the one
that booting leaves does.  A failed allocation leaves the managers exactly as they were:
`managedLocalmem_fails`.
-/

namespace Akaris

section Managers

variable {T : PageTable} {pages : List ℕ} {lost : ℕ} {r r' : Pool} {s' : Managers}
  {fl : ℕ → List ℕ} {d m : ℕ}

/-- The managers that there are stay. -/
lemma Shortfall.count_step (h : Shortfall T pages lost r fl) (hs : PoolStep T d r r') :
    r.st.count ≤ r'.st.count := by
  cases hs with
  | create keep min => exact Nat.le_succ _
  | alloc hm hrun =>
      rcases h.short.alloc_ok hm hrun with ⟨s₁, fl₁, k, x, xs, hmoved, -, -, -, -, rfl⟩
      exact hmoved.count.ge
  | allocFails hm hrun =>
      rcases h.short.alloc_error hm hrun with ⟨-, rfl⟩
      exact le_rfl
  | @free m addr res s' hm ha hrun =>
      rcases h.short.free_cases hm d addr with ⟨k, -, hrun'⟩
      rw [hrun] at hrun'
      obtain rfl := (Prod.mk.inj (Except.ok.inj hrun')).2
      exact le_rfl

/-- A page that is handed out is one of the pages, and was not out before; no manager is made. -/
lemma Shortfall.alloc_fresh (h : Shortfall T pages lost r fl) (hm : m < r.st.count) {a : ℕ}
    (hrun : (physmemPageAlloc T (d + 4) m).run r.st = .ok (.ok a, s')) :
    s'.count = r.st.count ∧ ∃ x ∈ pages, a = T.pageToPhys x ∧ a ∉ r.out := by
  rcases h.short.alloc_ok hm hrun with ⟨s₁, fl₁, k, x, xs, hmoved, hk, -, hfl, rfl, rfl⟩
  have hfree := hmoved.mem_free hk hfl
  refine ⟨hmoved.count, x, ?_, rfl, h.conserved.not_out hfree⟩
  exact h.conserved.perm.mem_iff.mp (List.mem_append_right _ hfree)

/-- **One feeder hands out every page that is counted.** -/
lemma Shortfall.feeder_alloc (h : Shortfall T pages lost r fl) (hcount : r.st.count = 2)
    (hroom : r.out.length + lost < pages.length) :
    ∃ a s', (physmemPageAlloc T (d + 4) 1).run r.st = .ok (.ok a, s') := by
  have hone : 1 < r.st.count := by omega
  rcases h.short.alloc_cases hone d with
    ⟨hnone, -⟩ | ⟨s₁, fl₁, k, x, xs, -, -, -, -, hrun⟩
  · have hsource := h.short.freePages_zero
    have hown := h.short.freePages one_ne_zero hone
    have hsplit := h.conserved.perm.length_eq
    rw [hnone.source] at hsource
    rw [hnone.own] at hown
    simp only [List.length_append, List.length_map, recount_count, hcount, allFree,
      List.range_succ, List.range_zero, List.nil_append, List.flatMap_append, List.flatMap_cons,
      List.flatMap_nil, List.append_nil] at hsplit
    omega
  · exact ⟨_, _, hrun⟩

end Managers

/-- The managers of the machine, with their free lists in order: the `pages` are the frames that
they were given, of which the source counts `lost` too few, and `mgr` is the manager in
`cpu()->localmem`. -/
structure ManagedMemory where
  pool : Pool
  mgr : ℕ
  pages : List ℕ
  lost : ℕ
  pages_range : ∀ p ∈ pages, 0 < p ∧ p < 2 ^ 20
  mgr_lt : mgr < pool.st.count
  lists : ∃ fl, Shortfall i686PageTable pages lost pool fl

namespace ManagedMemory

/-- The managers after a step. -/
def step (l : ManagedMemory) (r : Pool) (h : PoolStep i686PageTable 0 l.pool r) : ManagedMemory :=
  { l with
    pool := r
    mgr_lt := l.lists.elim fun _ hfl => l.mgr_lt.trans_le (hfl.count_step h)
    lists := l.lists.elim fun _ hfl => hfl.step h }

/-- `physmem_page_alloc(cpu()->localmem, 0, &address)`. -/
def pageAlloc (l : ManagedMemory) : Except PhysmemError ℕ × ManagedMemory :=
  match h : (physmemPageAlloc i686PageTable 4 l.mgr).run l.pool.st with
  | .ok (.ok a, s') => (.ok a, l.step ⟨s', a :: l.pool.out⟩ (.alloc l.mgr_lt h))
  | .ok (.error e, s') => (.error e, l.step ⟨s', l.pool.out⟩ (.allocFails l.mgr_lt h))
  | .error _ => (.error .oom, l) -- not reached, as the lists are in order

/-- `physmem_page_free(cpu()->localmem, address)`, of a page that was handed out. -/
def pageFree (address : ℕ) (l : ManagedMemory) : Except PhysmemError Unit × ManagedMemory :=
  if hout : address ∈ l.pool.out then
    match h : (physmemPageFree i686PageTable 4 l.mgr address).run l.pool.st with
    | .ok (res, s') =>
        (res, l.step ⟨s', l.pool.out.erase address⟩ (.free l.mgr_lt hout h))
    | .error _ => (.ok (), l) -- not reached, as the lists are in order
  else (.ok (), l)

/-- The frames that are not out. -/
def free (l : ManagedMemory) : Set ℕ := { f | f ∈ l.pages ∧ f * 4096 ∉ l.pool.out }

variable {l l' : ManagedMemory}

lemma pageAlloc_ok {address : ℕ} (h : l.pageAlloc = (.ok address, l')) :
    ∃ f ∈ l.free, address = f * 4096 ∧ f ∉ l'.free := by
  rw [pageAlloc] at h
  split at h
  · rename_i a s' hrun
    rcases l.lists with ⟨fl, hfl⟩
    rcases (hfl.alloc_fresh (d := 0) l.mgr_lt hrun).2 with ⟨x, hx, haddr, hout⟩
    have hrange := (l.pages_range x hx).2
    have hphys : a = x * 4096 := haddr.trans (wrap32_of_lt (by omega))
    have hok : a = address := Except.ok.inj (Prod.mk.inj h).1
    refine ⟨x, ⟨hx, hphys ▸ hout⟩, hok ▸ hphys, fun hfree => hfree.2 ?_⟩
    rw [← (Prod.mk.inj h).2, ← hphys]
    exact List.mem_cons_self
  · exact absurd (Prod.mk.inj h).1 (by simp)
  · exact absurd (Prod.mk.inj h).1 (by simp)

lemma pageAlloc_free : l.pageAlloc.2.free ⊆ l.free := by
  rw [pageAlloc]
  split
  · exact fun f hf => ⟨hf.1, fun hout => hf.2 (List.mem_cons_of_mem _ hout)⟩
  · exact fun f hf => hf
  · exact fun f hf => hf

lemma pageAlloc_fails {e : PhysmemError} (h : l.pageAlloc = (.error e, l')) : l' = l := by
  rw [pageAlloc] at h
  split at h
  · exact absurd (Prod.mk.inj h).1 (by simp)
  · rename_i e' s' hrun
    rcases l.lists with ⟨fl, hfl⟩
    have hsame : s' = l.pool.st := (hfl.short.alloc_error (d := 0) l.mgr_lt hrun).2
    subst hsame
    exact (Prod.mk.inj h).2.symm
  · exact (Prod.mk.inj h).2.symm

/-- `cpu()->localmem` is the one feeder over the source, and `n` pages that are counted are not
out. -/
structure HasPages (l : ManagedMemory) (n : ℕ) : Prop where
  mgr : l.mgr = 1
  count : l.pool.st.count = 2
  room : l.pool.out.length + l.lost + n ≤ l.pages.length

/-- As long as pages are counted, an allocation succeeds. -/
lemma HasPages.pageAlloc {n : ℕ} (h : l.HasPages (n + 1)) :
    ∃ address l', l.pageAlloc = (.ok address, l') ∧ l'.HasPages n := by
  rcases l.lists with ⟨fl, hfl⟩
  have hroom := h.room
  rcases hfl.feeder_alloc (d := 0) h.count (by omega) with ⟨a, s', hrun⟩
  rw [← h.mgr] at hrun
  rw [ManagedMemory.pageAlloc]
  split
  · rename_i a' s₁ hrun'
    have hkeeps := (hfl.alloc_fresh (d := 0) l.mgr_lt hrun').1
    refine ⟨a', _, rfl, h.mgr, hkeeps.trans h.count, ?_⟩
    simp only [step, List.length_cons]
    omega
  · rename_i e s₁ hrun'
    exact absurd (Prod.mk.inj (Except.ok.inj (hrun.symm.trans hrun'))).1 (by simp)
  · rename_i e hrun'
    exact absurd (hrun.symm.trans hrun') (by simp)

end ManagedMemory

/-- **The code of `physmem.c` is a `Localmem`**, also with a source that counts too few pages. -/
def managedLocalmem : Localmem ManagedMemory where
  pageAlloc := ManagedMemory.pageAlloc
  pageFree := ManagedMemory.pageFree
  free := ManagedMemory.free
  free_range l f hf := l.pages_range f hf.1
  pageAlloc_ok := ManagedMemory.pageAlloc_ok
  pageAlloc_free hf := ManagedMemory.pageAlloc_free hf

/-- **A failed allocation of the machine changes nothing.** -/
lemma managedLocalmem_fails {l l' : ManagedMemory} {e : PhysmemError}
    (h : managedLocalmem.pageAlloc l = (.error e, l')) : l' = l :=
  ManagedMemory.pageAlloc_fails h

end Akaris
