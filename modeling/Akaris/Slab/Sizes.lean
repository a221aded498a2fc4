import Akaris.Slab.Geometry
import Akaris.Slab.Runs

/-!
# The sizes that a cache accepts

`common_kmem_cache_init` refuses the size 0 and nothing else.  What is promised of a size is
`SizeHandled`: a cache that was initialised for it is usable in all its states, and a size without
a slab layout is refused.  `size_handled_iff` says for which sizes the promise is kept.  For the
others, `commonKmemCacheAlloc_stops` says what becomes of the first allocation that gets its two
pages: it divides by zero or fires `assert(n_elements > 0)`.
-/

namespace Akaris

/-- There is no slab to allocate from, and no page for one. -/
def LacksMemory {ε σ : Type} (k : Kmem ε σ) : Prop :=
  k.cache.slabsPartial = [] ∧ k.cache.slabsEmpty = [] ∧ newSlab k = []

/-- What is promised of a size, with pages of `page` bytes: an allocation of an accepted cache does
not stop unless the machine does, `NULL` means that there was no slab and no memory for one, an
object lies in the page of a slab, and a size for which no slab can be laid out is refused. -/
structure SizeHandled (page size : ℕ) : Prop where
  returns : ∀ (ε σ : Type) (c : Cpu ε σ) (r : SlabRun ε σ), c.physmemPageSize = page →
    SlabReachable c size (fun _ _ => True) r → FreshSupply page r.pages r.k →
    ∀ e, commonKmemCacheAlloc.run r.k = .error e → ∃ e', e = .env e'
  null : ∀ (ε σ : Type) (c : Cpu ε σ) (r : SlabRun ε σ), c.physmemPageSize = page →
    SlabReachable c size (fun _ _ => True) r → FreshSupply page r.pages r.k →
    ∀ k', commonKmemCacheAlloc.run r.k = .ok (none, k') → LacksMemory r.k
  object : ∀ (ε σ : Type) (c : Cpu ε σ) (r : SlabRun ε σ), c.physmemPageSize = page →
    SlabReachable c size (fun _ _ => True) r → FreshSupply page r.pages r.k →
    ∀ obj k', commonKmemCacheAlloc.run r.k = .ok (some obj, k') →
      ∃ s ∈ newSlab r.k ++ r.pages, s < obj ∧ obj + size ≤ s + page
  refused : ∀ (ε σ : Type) (k : KmemCache ε σ) (c : Cpu ε σ) ctor dtor,
    (∀ n, Layout page size n → n = 0) →
    (commonKmemCacheInit k c size ctor dtor).1 = .error .invalid

section Sizes

variable {ε σ : Type} {c : Cpu ε σ} {page size : ℕ} {r : SlabRun ε σ}

/-- A slab of a size that is not refused holds an object, or none can be laid out. -/
lemma layout_iff_holdsOne : (∃ n, Layout page size n ∧ n ≠ 0) ↔ HoldsOne page size := by
  constructor
  · rintro ⟨n, hn, h0⟩
    have hmul : size ≤ n * size := Nat.le_mul_of_pos_left size (Nat.pos_of_ne_zero h0)
    rw [Layout, sizeofKmemSlab, sizeofPtr] at hn
    rw [HoldsOne, sizeofKmemSlab, sizeofPtr]
    omega
  · intro h
    refine ⟨1, ?_, one_ne_zero⟩
    rw [HoldsOne, sizeofKmemSlab, sizeofPtr] at h
    rw [Layout, sizeofKmemSlab, sizeofPtr]
    omega

lemma not_reachable_zero {allowed : Kmem ε σ → ℕ → Prop} :
    ¬SlabReachable c 0 allowed r := by
  intro hr
  have hpos : (0 : ℕ) < 0 := by
    induction hr with
    | base h => exact h.cache.1
    | tail _ _ ih => exact ih
  exact absurd hpos (lt_irrefl 0)

/-- Every other size is accepted. -/
lemma size_accepted (k : KmemCache ε σ) (c : Cpu ε σ) (ctor dtor : Option (ℕ → Prog ε σ Unit))
    (hsize : size ≠ 0) : (commonKmemCacheInit k c size ctor dtor).1 = .ok () := by
  rw [commonKmemCacheInit, if_neg (by rw [minCacheSize]; omega)]

/-- Outstanding objects are whole objects of a slab. -/
lemma SlabInv.object_within {tidy : Prop} {pg out : List ℕ} {k : Kmem ε σ} {obj : ℕ}
    (hfit : Fits c.physmemPageSize size) (h : SlabInv tidy c size pg out k) (hobj : obj ∈ out) :
    ∃ s ∈ pg, s < obj ∧ obj + size ≤ s + c.physmemPageSize := by
  rcases List.mem_flatMap.mp (h.stock.mem_objects hobj) with ⟨s, hs, hmem⟩
  have hwithin := slabObjects_within hfit (h.stock.placed s hs) hmem
  rw [sizeofKmemSlab, sizeofPtr] at hwithin
  exact ⟨s, hs, by omega, by omega⟩

/-- Without a slab for it, an allocation had no memory for one. -/
lemma kmemCacheFindSlab_null (k : Kmem ε σ) :
    Prog.wp kmemCacheFindSlab (fun found _ => found = none → LacksMemory k) (fun _ => True) k := by
  simp only [kmemCacheFindSlab, Prog.wp_bind, Prog.wp_gets]
  cases hpart : k.cache.slabsPartial with
  | cons s rest => exact fun h => absurd h (by simp)
  | nil =>
      cases hempty : k.cache.slabsEmpty with
      | cons s rest =>
          simp only [Prog.wp_bind, Prog.wp_update]
          exact fun h => absurd h (by simp)
      | nil =>
          simp only [callEnv, Prog.wp_bind, Prog.wp_zoom]
          refine Prog.wp_mono (Prog.wp_self _ _) ?_ fun _ _ => trivial
          intro found e halloc
          cases found with
          | error _ => exact fun _ => ⟨hpart, hempty, by simp [newSlab, hpart, hempty, halloc]⟩
          | ok vaddr =>
              simp only [Prog.wp_bind, Prog.wp_zoom]
              refine Prog.wp_mono (Prog.wp_self _ _) ?_ fun _ _ => trivial
              intro found e' hpage
              cases found with
              | error _ =>
                  exact fun _ => ⟨hpart, hempty, by simp [newSlab, hpart, hempty, halloc, hpage]⟩
              | ok paddr =>
                  -- whatever happens from here on, a slab is returned
                  simp only [Prog.wp_bind, Prog.wp_zoom]
                  refine Prog.wp_mono (Prog.wp_any _ _) ?_ fun _ _ => trivial
                  intro _ _ _
                  rw [Prog.wp_update, Prog.wp_bind]
                  refine Prog.wp_mono (Prog.wp_any _ _) ?_ fun _ _ => trivial
                  intro _ _ _
                  rw [Prog.wp_bind, Prog.wp_update, Prog.wp_pure]
                  exact fun h => absurd h (by simp)

/-- An allocation that has a slab does not return `NULL`. -/
lemma kmemCacheTakeObject_some (s : ℕ) (k : Kmem ε σ) :
    Prog.wp (kmemCacheTakeObject s) (fun r _ => r ≠ none) (fun _ => True) k := by
  have hhand : ∀ (obj : ℕ) (k : Kmem ε σ),
      Prog.wp (kmemCacheHandOut obj) (fun r _ => r ≠ none) (fun _ => True) k := by
    intro obj k
    refine Prog.wp_mono (kmemCacheHandOut_wp obj) ?_ fun _ _ => trivial
    rintro _ _ ⟨rfl, -⟩
    exact Option.some_ne_none obj
  rw [kmemCacheTakeObject, Prog.wp_bind, Prog.wp_gets]
  cases (k.slab s).freelist[(k.slab s).firstFree]? with
  | none => exact (Prog.wp_fault _).mpr trivial
  | some obj =>
      simp only [Prog.wp_bind, Prog.wp_assert, Prog.wp_update]
      refine ⟨fun _ => ?_, fun _ => trivial⟩
      cases (k.slab s).freelist[(k.slab s).firstFree + 1]? with
      | none => exact (Prog.wp_fault _).mpr trivial
      | some next =>
          by_cases hfull : next = 0
          · simp only [if_pos hfull, Prog.wp_bind, Prog.wp_gets]
            refine Prog.wp_mono (Prog.wp_any _ _) ?_ fun _ _ => trivial
            intro _ _ _
            rw [Prog.wp_bind, Prog.wp_update]
            exact hhand obj _
          · simp only [if_neg hfull]
            exact hhand obj _

/-- **`NULL` means lack of memory.** -/
lemma commonKmemCacheAlloc_null (k : Kmem ε σ) :
    Prog.wp commonKmemCacheAlloc (fun found _ => found = none → LacksMemory k) (fun _ => True)
      k := by
  rw [commonKmemCacheAlloc, Prog.wp_bind]
  refine Prog.wp_mono (kmemCacheFindSlab_null k) ?_ fun _ _ => trivial
  intro found k' hnull
  cases found with
  | none => exact hnull
  | some s =>
      exact Prog.wp_mono (kmemCacheTakeObject_some s k') (fun _ _ hr h => absurd h hr)
        fun _ _ => trivial

/-- **A size with a layout** is handled. -/
lemma sizeHandled_of_holdsOne (hone : HoldsOne page size) : SizeHandled page size := by
  have hinv : ∀ (ε σ : Type) (c : Cpu ε σ) (r : SlabRun ε σ), c.physmemPageSize = page →
      SlabReachable c size (fun _ _ => True) r → Fits c.physmemPageSize size ∧
        SlabInv False c size r.pages r.out r.k := by
    rintro ε σ c r rfl hr
    exact ⟨SlabReachable.fits hone hr, SlabReachable.inv hone False.elim hr⟩
  refine ⟨fun ε σ c r hpage hr hfresh e hrun => ?_, fun ε σ c r hpage hr hfresh k' hrun => ?_,
    fun ε σ c r hpage hr hfresh obj k' hrun => ?_, fun ε σ k c ctor dtor hno => ?_⟩
  · rcases hinv ε σ c r hpage hr with ⟨hfit, h⟩
    rw [← hpage] at hfresh
    have hstop := Prog.wp_stop (commonKmemCacheAlloc_wp hfit h hfresh) hrun
    exact hstop
  · have hnull := Prog.wp_run (commonKmemCacheAlloc_null r.k) hrun
    exact hnull rfl
  · rcases hinv ε σ c r hpage hr with ⟨hfit, h⟩
    rw [← hpage] at hfresh ⊢
    have hnext := Prog.wp_run (commonKmemCacheAlloc_wp hfit h hfresh) hrun
    exact hnext.2.object_within hfit List.mem_cons_self
  · rcases layout_iff_holdsOne.mpr hone with ⟨n, hn, h0⟩
    exact absurd (hno n hn) h0

/-- The size 0 is handled: there are no runs of its caches. -/
lemma sizeHandled_zero : SizeHandled page 0 :=
  ⟨fun _ _ _ _ _ hr => absurd hr not_reachable_zero,
    fun _ _ _ _ _ hr => absurd hr not_reachable_zero,
    fun _ _ _ _ _ hr => absurd hr not_reachable_zero, fun _ _ _ _ _ _ _ => rfl⟩

/-- **The sizes that are handled** are 0 and those of which a page holds an object. -/
theorem size_handled_iff : SizeHandled page size ↔ size = 0 ∨ HoldsOne page size := by
  constructor
  · intro h
    by_contra hbad
    rw [not_or, ← layout_iff_holdsOne] at hbad
    have hrefused := h.refused Empty ℕ (pageByPageRun size).k.cache pageByPage none none
      fun n hn => by_contra fun h0 => hbad.2 ⟨n, hn, h0⟩
    rw [size_accepted _ _ _ _ hbad.1] at hrefused
    exact absurd hrefused (by simp)
  · rintro (rfl | hone)
    · exact sizeHandled_zero
    · exact sizeHandled_of_holdsOne hone

/-- A size without a layout does not get past the assertions of `kmem_initialize_slab`. -/
lemma kmemInitializeSlab_stops {k : Kmem ε σ} {s : ℕ} (hpage : 20 ≤ c.physmemPageSize)
    (hcpu : k.cache.cpu = c) (hobj : k.cache.objsize = size) (hpages : (k.slab s).nPages = 1)
    (h0 : size ≠ 0) (hone : ¬HoldsOne c.physmemPageSize size) (hsize : size + 4 ≤ 2 ^ 32) :
    Prog.wp (kmemInitializeSlab s) (fun _ _ => False)
      (fun e => e = .divideByZero ∨ e = .assertNElements ∨ e = .assertSlab) k := by
  have hlt := c.physmemPageSize_lt
  have hwrap : wrap32 (1 * c.physmemPageSize) = c.physmemPageSize := by
    rw [Nat.one_mul]
    exact wrap32_of_lt (by omega)
  have hnone : wrap32 (size + sizeofPtr) ≠ 0 → ¬0 < nElements c.physmemPageSize size := by
    intro hslot hpos
    have hlt' : size + 4 < 2 ^ 32 := by
      rcases Nat.lt_or_eq_of_le hsize with h | h
      · exact h
      · rw [sizeofPtr, h] at hslot
        exact absurd rfl hslot
    have hheader : sub32 (sub32 c.physmemPageSize 16) 4 = c.physmemPageSize - 20 := by
      rw [sub32_of_le (a := c.physmemPageSize) (by omega) (by omega),
        sub32_of_le (by omega) (by omega)]
      omega
    simp only [nElements, sizeofKmemSlab, sizeofPtr, hheader, wrap32_of_lt hlt'] at hpos
    have hle := (Nat.div_pos_iff.mp hpos).2
    rw [HoldsOne, sizeofKmemSlab, sizeofPtr] at hone
    omega
  simp only [kmemInitializeSlab, Prog.wp_bind, Prog.wp_gets, Prog.wp_assert, Prog.wp_update, hcpu,
    hobj, hpages, hwrap]
  refine ⟨fun _ => ⟨fun _ => ⟨fun _ => ⟨fun hslot => ⟨fun hn => ?_, fun _ => ?_⟩, fun _ => ?_⟩,
    absurd h0⟩, absurd one_ne_zero⟩, fun _ => ?_⟩
  · exact hnone hslot hn.1
  · exact Or.inr (Or.inl trivial)
  · exact Or.inl trivial
  · exact Or.inr (Or.inr trivial)

/-- **An accepted size without a layout** stops the first allocation that gets its two pages. -/
lemma commonKmemCacheAlloc_stops {vaddr : ℕ} (hinit : SlabInit c size r)
    (hpage : 20 ≤ c.physmemPageSize) (hone : ¬HoldsOne c.physmemPageSize size)
    (hsize : size + 4 ≤ 2 ^ 32) (hnew : newSlab r.k = [vaddr]) :
    Prog.wp commonKmemCacheAlloc (fun _ _ => False) (fun e => e = .divideByZero ∨
      e = .assertNElements ∨ e = .assertSlab ∨ ∃ e', e = .env e') r.k := by
  have henv : ∀ e, KmemFault.env e = (.divideByZero : KmemFault ε) ∨
      KmemFault.env e = .assertNElements ∨ KmemFault.env e = .assertSlab ∨
      ∃ e', KmemFault.env e = .env e' := fun e => Or.inr (Or.inr (Or.inr ⟨e, rfl⟩))
  obtain ⟨h0, hcpu, hobj, -, -, hpart, hempty⟩ := hinit.cache
  simp only [commonKmemCacheAlloc, kmemCacheFindSlab, Prog.wp_bind, Prog.wp_gets, hpart, hempty,
    callEnv, Prog.wp_zoom]
  refine Prog.wp_mono (Prog.wp_self _ _) ?_ fun e _ => henv e
  intro found e halloc
  cases found with
  | error _ =>
      rw [newSlab, hpart, hempty] at hnew
      simp [halloc] at hnew
  | ok v =>
      simp only [Prog.wp_bind, Prog.wp_zoom]
      refine Prog.wp_mono (Prog.wp_self _ _) ?_ fun e _ => henv e
      intro found e' hpage'
      cases found with
      | error _ =>
          rw [newSlab, hpart, hempty] at hnew
          simp [halloc, hpage'] at hnew
      | ok paddr =>
          simp only [Prog.wp_bind, Prog.wp_zoom]
          refine Prog.wp_mono (Prog.wp_any _ _) ?_ fun e _ => henv e
          intro _ e'' _
          rw [Prog.wp_update, Prog.wp_bind]
          refine Prog.wp_mono (kmemInitializeSlab_stops hpage (by exact hcpu) (by exact hobj)
            (by simp) h0.ne' hone hsize) (fun _ _ h => h.elim) ?_
          rintro e (he | he | he)
          · exact Or.inl he
          · exact Or.inr (Or.inl he)
          · exact Or.inr (Or.inr (Or.inl he))

end Sizes

/-- The size 5000 is accepted, and the first allocation does not get past the assertions. -/
theorem size_not_handled : ¬SizeHandled 4096 5000 := by
  intro h
  have hinit : SlabInit pageByPage 5000 (pageByPageRun 5000) := pageByPageRun_init (by norm_num)
  have hfresh : FreshSupply 4096 (pageByPageRun 5000).pages (pageByPageRun 5000).k := by
    intro v hv
    rw [List.mem_singleton.mp (show v ∈ [4096] from hv)]
    exact ⟨⟨by norm_num, by norm_num⟩, fun t ht => absurd ht List.not_mem_nil⟩
  have hnew : newSlab (pageByPageRun 5000).k = [4096] := rfl
  have hstops := commonKmemCacheAlloc_stops hinit (show 20 ≤ 4096 by norm_num) (by decide)
    (by norm_num) hnew
  unfold Prog.wp at hstops
  rcases hrun : commonKmemCacheAlloc.run (pageByPageRun 5000).k with e | ⟨a, k'⟩
  · rcases h.returns Empty ℕ pageByPage _ rfl (.base hinit) hfresh e hrun with ⟨e', -⟩
    exact e'.elim
  · rw [hrun] at hstops
    exact hstops

end Akaris
