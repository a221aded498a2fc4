import Akaris.Slab.Sizes
import Akaris.Virtmem.Allocations
import Akaris.Virtmem.Localmem

/-!
# What a failed allocation leaves behind

`common_kmem_cache_alloc` takes a kernel page and then a frame for it.  When there is no frame, it
returns `NULL` with the kernel page taken: it does not call `kernel_free`, which would do nothing.
`failed_alloc_leaves_no_trace_iff` says in which states a `NULL` leaves the cache, the kernel pages
and the managers as they were.
-/

namespace Akaris

open BsdList

variable {ρ : Type} {K : KernelImage} {L : Localmem ρ}

-- the rules are all that is used of it: computing it would run the program
attribute [local irreducible] Prog.wp

/-- The kernel pages that are reserved. -/
def reservedPages (K : KernelImage) (mem : PhysMem) : Finset ℕ :=
  (Finset.range (2 ^ 18)).filter fun i => Entry.present.get (kernelFlatpt K mem i) = 1

/-- There is no trace of a call: the cache, its slabs, the reserved kernel pages and the managers
with their free lists are as before. -/
structure NoTrace (K : KernelImage) (k k' : MachineKmem ManagedMemory) : Prop where
  cache : k'.cache = k.cache
  slab : k'.slab = k.slab
  pages : reservedPages K k'.env.mem = reservedPages K k.env.mem
  managers : k'.env.localmem = k.env.localmem

/-- There is no frame to be had. -/
def OutOfFrames (L : Localmem ρ) (t : Machine ρ) : Prop := ∃ e, (L.pageAlloc t.localmem).1 = .error e

section Traces

variable {k : MachineKmem ρ}

/-- **What `NULL` means**: there was no slab, and no kernel page or no frame for one.  Without a
kernel page nothing has happened. -/
lemma commonKmemCacheAlloc_null_wp (hcpu : k.cache.cpu = i686Cpu K L) :
    Prog.wp commonKmemCacheAlloc
      (fun r k' => r = none → NeedsSlab k ∧
        (freeWindows K k.env.mem = 0 ∧ k' = k ∨ OutOfFrames L k.env))
      (fun _ => True) k := by
  rw [commonKmemCacheAlloc, Prog.wp_bind]
  have hsome : ∀ (s : ℕ) (k' : MachineKmem ρ), Prog.wp (kmemCacheTakeObject s)
      (fun r k' => r = none → NeedsSlab k ∧
        (freeWindows K k.env.mem = 0 ∧ k' = k ∨ OutOfFrames L k.env)) (fun _ => True) k' :=
    fun s k' => Prog.wp_mono (kmemCacheTakeObject_some s k') (fun _ _ hr h => absurd h hr)
      fun _ _ => trivial
  rw [kmemCacheFindSlab, Prog.wp_bind, Prog.wp_gets]
  cases hpart : k.cache.slabsPartial with
  | cons s rest => exact (Prog.wp_pure _).mpr (hsome s k)
  | nil =>
      cases hempty : k.cache.slabsEmpty with
      | cons s rest =>
          exact (Prog.wp_bind _ _).mpr ((Prog.wp_update _).mpr ((Prog.wp_pure _).mpr (hsome s _)))
      | nil =>
          have hneeds : NeedsSlab k := ⟨hpart, hempty⟩
          refine (Prog.wp_bind _ _).mpr ?_
          rw [callEnv, Prog.wp_zoom, hcpu]
          refine Prog.wp_mono (i686KernelAlloc_wp (Opens.refl k.env)) ?_ fun _ _ => trivial
          rintro _ e₁ (⟨i, rfl, -, h₁, -, -⟩ | ⟨rfl, hfull, rfl⟩)
          · refine (Prog.wp_bind _ _).mpr ?_
            rw [callEnv, Prog.wp_zoom]
            refine (Prog.wp_of_run (localmemPageAlloc_run (L := L) e₁)).mpr ?_
            rw [h₁.localmem]
            cases hr : (L.pageAlloc k.env.localmem).1 with
            | error err =>
                exact (Prog.wp_pure _).mpr ((Prog.wp_pure _).mpr fun _ =>
                  ⟨hneeds, Or.inr ⟨err, hr⟩⟩)
            | ok address =>
                refine (Prog.wp_bind _ _).mpr ?_
                rw [callEnv, Prog.wp_zoom]
                refine Prog.wp_mono (Prog.wp_any _ _) ?_ fun _ _ => trivial
                intro _ _ _
                refine (Prog.wp_bind _ _).mpr ((Prog.wp_update _).mpr ((Prog.wp_bind _ _).mpr ?_))
                refine Prog.wp_mono (Prog.wp_any _ _) ?_ fun _ _ => trivial
                intro _ _ _
                exact (Prog.wp_bind _ _).mpr ((Prog.wp_update _).mpr ((Prog.wp_pure _).mpr
                  (hsome _ _)))
          · refine (Prog.wp_pure _).mpr ((Prog.wp_pure _).mpr fun _ =>
              ⟨hneeds, Or.inl ⟨?_, rfl⟩⟩)
            rw [hfull, Finset.card_empty]

/-- **Without a frame**, an allocation that needs a slab returns `NULL` and takes a kernel page. -/
lemma commonKmemCacheAlloc_short_wp (hcpu : k.cache.cpu = i686Cpu K L) (hneeds : NeedsSlab k)
    (hshort : OutOfFrames L k.env) :
    Prog.wp commonKmemCacheAlloc
      (fun r k' => r = none ∧ k'.cache = k.cache ∧ k'.slab = k.slab ∧
        ((freeWindows K k.env.mem = 0 ∧ k' = k) ∨
          ∃ i, Opens K {i} { k.env with localmem := (L.pageAlloc k.env.localmem).2 } k'.env))
      (fun _ => False) k := by
  rcases hshort with ⟨err, hr⟩
  rw [commonKmemCacheAlloc, Prog.wp_bind, kmemCacheFindSlab, Prog.wp_bind, Prog.wp_gets, hneeds.1,
    hneeds.2]
  refine (Prog.wp_bind _ _).mpr ?_
  rw [callEnv, Prog.wp_zoom, hcpu]
  refine Prog.wp_mono (i686KernelAlloc_wp (Opens.refl k.env)) ?_ fun _ he => he
  rintro _ e₁ (⟨i, rfl, -, h₁, -, -⟩ | ⟨rfl, hfull, rfl⟩)
  · refine (Prog.wp_bind _ _).mpr ?_
    rw [callEnv, Prog.wp_zoom]
    refine (Prog.wp_of_run (localmemPageAlloc_run (L := L) e₁)).mpr ?_
    rw [h₁.localmem, hr]
    exact (Prog.wp_pure _).mpr ((Prog.wp_pure _).mpr
      ⟨rfl, rfl, rfl, Or.inr ⟨i, h₁.setLocalmem (L.pageAlloc k.env.localmem).2⟩⟩)
  · refine (Prog.wp_pure _).mpr ((Prog.wp_pure _).mpr ⟨rfl, rfl, rfl, Or.inl ⟨?_, rfl⟩⟩)
    rw [hfull, Finset.card_empty]

/-- Opening windows reserves kernel pages. -/
lemma Opened.reserves {W : Finset ℕ} {base mem : PhysMem} (h : Opened K W base mem) {i : ℕ}
    (hi : i ∈ W) : reservedPages K mem ≠ reservedPages K base := by
  intro heq
  have hmem : i ∈ reservedPages K mem :=
    Finset.mem_filter.mpr ⟨Finset.mem_range.mpr (h.fresh i hi).1, h.opened i hi⟩
  rw [heq] at hmem
  have hfresh := (h.fresh i hi).2
  have hkept := (Finset.mem_filter.mp hmem).2
  omega

end Traces

/-! ## The machine with the managers of `physmem.c` -/

section Managed

variable {k : MachineKmem ManagedMemory}

/-- `n` allocations one after the other, and what they return. -/
def allocTimes : (n : ℕ) → KmemProg MachineFault (Machine ManagedMemory) (List (Option ℕ))
  | 0 => return []
  | n + 1 => do
      let obj ← commonKmemCacheAlloc
      return obj :: (← allocTimes n)

/-- An allocation that fails for lack of a frame, on the machine with its managers. -/
lemma commonKmemCacheAlloc_short (hcpu : k.cache.cpu = i686Cpu K managedLocalmem)
    (hneeds : NeedsSlab k) (hshort : OutOfFrames managedLocalmem k.env) :
    ∃ k', commonKmemCacheAlloc.run k = .ok (none, k') ∧ k'.cache = k.cache ∧ k'.slab = k.slab ∧
      k'.env.localmem = k.env.localmem ∧
      freeWindows K k'.env.mem = freeWindows K k.env.mem - 1 ∧
      (freeWindows K k.env.mem ≠ 0 →
        reservedPages K k'.env.mem ≠ reservedPages K k.env.mem) := by
  rcases Prog.wp_returns (commonKmemCacheAlloc_short_wp hcpu hneeds hshort) with
    ⟨_, k', hrun, rfl, hcache, hslab, ⟨hfull, rfl⟩ | ⟨i, hopens⟩⟩
  · refine ⟨k', hrun, rfl, rfl, rfl, ?_, fun hne => absurd hfull hne⟩
    rw [hfull]
  · rcases hshort with ⟨e, he⟩
    have hsame : (managedLocalmem.pageAlloc k.env.localmem).2 = k.env.localmem :=
      managedLocalmem_fails (Prod.ext he rfl)
    have hcount := hopens.mem.freeWindows
    rw [Finset.card_singleton] at hcount
    refine ⟨k', hrun, hcache, hslab, hopens.localmem.trans hsame, ?_, fun _ =>
      hopens.mem.reserves (Finset.mem_singleton_self i)⟩
    dsimp only at hcount
    omega

/-- **Repeated failing calls** take one kernel page each, as long as there is one. -/
lemma allocTimes_short (n : ℕ) : ∀ {k : MachineKmem ManagedMemory},
    k.cache.cpu = i686Cpu K managedLocalmem → NeedsSlab k → OutOfFrames managedLocalmem k.env →
    ∃ k', (allocTimes n).run k = .ok (List.replicate n none, k') ∧
      freeWindows K k'.env.mem = freeWindows K k.env.mem - n := by
  induction n with
  | zero =>
      intro k _ _ _
      exact ⟨k, Prog.run_pure [] k, (Nat.sub_zero _).symm⟩
  | succ n ih =>
      intro k hcpu hneeds hshort
      rcases commonKmemCacheAlloc_short hcpu hneeds hshort with
        ⟨k₁, hrun₁, hcache, -, hmanagers, hwindows, -⟩
      have hneeds₁ : NeedsSlab k₁ := by
        rw [NeedsSlab, hcache]
        exact hneeds
      have hshort₁ : OutOfFrames managedLocalmem k₁.env := by
        rw [OutOfFrames, hmanagers]
        exact hshort
      rcases ih (hcache ▸ hcpu) hneeds₁ hshort₁ with ⟨k', hrun, hleft⟩
      refine ⟨k', ?_, by omega⟩
      rw [allocTimes, Prog.run_bind_ok hrun₁, Prog.run_bind_ok hrun]
      rfl

/-- **A `NULL` leaves no trace** unless a kernel page was free and a frame was not: then the kernel
page stays reserved, and repeating the call takes all kernel pages there are. -/
theorem failed_alloc_leaves_no_trace_iff (hcpu : k.cache.cpu = i686Cpu K managedLocalmem) :
    ((∀ k', commonKmemCacheAlloc.run k = .ok (none, k') → NoTrace K k k') ↔
      ¬(NeedsSlab k ∧ freeWindows K k.env.mem ≠ 0 ∧ OutOfFrames managedLocalmem k.env)) ∧
    (NeedsSlab k → OutOfFrames managedLocalmem k.env → ∀ n, ∃ k',
      (allocTimes n).run k = .ok (List.replicate n none, k') ∧
      freeWindows K k'.env.mem = freeWindows K k.env.mem - n) := by
  refine ⟨⟨?_, ?_⟩, fun hneeds hshort n => allocTimes_short n hcpu hneeds hshort⟩
  · rintro hall ⟨hneeds, hwindows, hshort⟩
    rcases commonKmemCacheAlloc_short hcpu hneeds hshort with ⟨k', hrun, -, -, -, -, hleak⟩
    exact hleak hwindows (hall k' hrun).pages
  · intro hnot k' hrun
    have hnull := Prog.wp_run (commonKmemCacheAlloc_null_wp hcpu) hrun
    rcases hnull rfl with ⟨hneeds, ⟨-, rfl⟩ | hshort⟩
    · exact ⟨rfl, rfl, rfl, rfl⟩
    · have hfull : freeWindows K k.env.mem = 0 := by
        by_contra hne
        exact hnot ⟨hneeds, hne, hshort⟩
      rcases Prog.wp_run (commonKmemCacheAlloc_short_wp hcpu hneeds hshort) hrun with
        ⟨-, hcache, hslab, ⟨-, rfl⟩ | ⟨i, hopens⟩⟩
      · exact ⟨rfl, rfl, rfl, rfl⟩
      · have hcount := hopens.mem.freeWindows
        rw [Finset.card_singleton] at hcount
        dsimp only at hcount
        omega

/-! ## A machine without frames -/

/-- A source without a page. -/
def emptySource : Managers where
  count := 1
  mgr _ := { v := .common, totalPages := 0, freePages := 0 }
  links := { lhFirst := fun _ => none, leNext := fun _ => none, lePrev := fun _ => .first 0 }

lemma emptySource_isSource : IsShortSource i686PageTable [] 0 emptySource where
  count := rfl
  common := rfl
  chain := by simp [Chain, Links.read, emptySource]
  freePages := rfl
  totalPages_lt := by decide
  nodup := List.nodup_nil
  managed := fun p hp => absurd hp List.not_mem_nil
  small := by decide

/-- The managers of a machine without frames. -/
def noFrames : ManagedMemory where
  pool := { st := emptySource, out := [] }
  mgr := 0
  pages := []
  lost := 0
  pages_range _ hp := absurd hp List.not_mem_nil
  mgr_lt := Nat.one_pos
  lists := ⟨_, emptySource_isSource.init⟩

lemma noFrames_short {t : Machine ManagedMemory} (h : t.localmem = noFrames) :
    OutOfFrames managedLocalmem t := by
  rw [OutOfFrames, h]
  rcases hr : (managedLocalmem.pageAlloc noFrames).1 with e | address
  · exact ⟨e, rfl⟩
  · rcases managedLocalmem.pageAlloc_ok (Prod.ext hr rfl) with ⟨f, hf, -⟩
    exact absurd hf.1 List.not_mem_nil

/-- A cache for objects of 64 bytes on the small machine without frames. -/
def starvedCache : MachineKmem ManagedMemory :=
  newCache smallImage managedLocalmem 64 i686MemoryRegionCtor (smallMachineWith noFrames)

lemma starvedCache_windows : freeWindows smallImage starvedCache.env.mem = 2 ^ 18 :=
  freeWindows_smallMachine

/-- A failing call on it leaves a trace, and repeating the call takes all kernel pages there are. -/
theorem failed_alloc_leaves_no_trace_starved :
    (¬∀ k', commonKmemCacheAlloc.run starvedCache = .ok (none, k') →
      NoTrace smallImage starvedCache k') ∧
    ∃ k', (allocTimes (2 ^ 18)).run starvedCache = .ok (List.replicate (2 ^ 18) none, k') ∧
      freeWindows smallImage k'.env.mem = 0 := by
  have hneeds : NeedsSlab starvedCache := ⟨rfl, rfl⟩
  have hshort : OutOfFrames managedLocalmem starvedCache.env := noFrames_short rfl
  rcases failed_alloc_leaves_no_trace_iff (K := smallImage) (k := starvedCache) rfl with
    ⟨hiff, hrepeat⟩
  constructor
  · intro hall
    refine hiff.mp hall ⟨hneeds, ?_, hshort⟩
    rw [starvedCache_windows]
    norm_num
  · rcases hrepeat hneeds hshort (2 ^ 18) with ⟨k', hrun, hleft⟩
    rw [starvedCache_windows, Nat.sub_self] at hleft
    exact ⟨k', hrun, hleft⟩

/-- There, the first call returns `NULL` and leaves a kernel page reserved. -/
theorem failed_alloc_leaves_trace : ∃ k',
    commonKmemCacheAlloc.run starvedCache = .ok (none, k') ∧ ¬NoTrace smallImage starvedCache k' := by
  rcases commonKmemCacheAlloc_short (k := starvedCache) rfl ⟨rfl, rfl⟩ (noFrames_short rfl) with
    ⟨k', hrun, -, -, -, -, hleak⟩
  refine ⟨k', hrun, fun h => hleak ?_ h.pages⟩
  rw [starvedCache_windows]
  norm_num

end Managed

end Akaris
