import Akaris.Slab.Runs
import Akaris.Virtmem.Setup

/-!
# Slab caches on the i686

What allocating an object does to the machine.  The slabs of a cache are kernel pages, and a new one
is a window onto a frame of `localmem`.  `ObjectTaken` describes the machine on which the
constructor then runs: at most one window was opened and one frame taken, and only the frame of the
slab changed.  `commonKmemCacheAlloc_machine_wp` puts this together with a constructor: the
allocation returns `NULL` exactly when a new slab is needed and cannot be had.
-/

namespace Akaris

variable {ρ : Type} {K : KernelImage} {L : Localmem ρ}

-- the rules are all that is used of it: computing it would run the program
attribute [local irreducible] Prog.wp

/-- A cache on the i686 and the machine below. -/
abbrev MachineKmem (ρ : Type) := Kmem MachineFault (Machine ρ)

/-- A page of a slab: a kernel page that shows a frame which is in use for it. -/
def SlabPage (K : KernelImage) (L : Localmem ρ) (t : Machine ρ) (s : ℕ) : Prop :=
  ∃ i f, s = window i ∧ Shows K t.mem i f ∧ PlainFrame K t.cr3 f ∧ f ∉ L.free t.localmem

/-- **A cache that is ready to be used**, with the slabs `pg` and the objects `out` outstanding. -/
structure KmemReady (K : KernelImage) (L : Localmem ρ) (size : ℕ) (pg out : List ℕ)
    (k : MachineKmem ρ) : Prop where
  inv : SlabInv False (i686Cpu K L) size pg out k
  running : Running K k.env
  wipe : CanWipe K L k.env
  pages : ∀ s ∈ pg, SlabPage K L k.env s

/-- There is no slab to allocate from. -/
def NeedsSlab (k : MachineKmem ρ) : Prop :=
  k.cache.slabsPartial = [] ∧ k.cache.slabsEmpty = []

instance (k : MachineKmem ρ) : Decidable (NeedsSlab k) := inferInstanceAs (Decidable (_ ∧ _))

/-- There are a kernel page and a frame for a new slab. -/
def SlabAvailable (K : KernelImage) (L : Localmem ρ) (t : Machine ρ) : Prop :=
  freeWindows K t.mem ≠ 0 ∧ ∃ p, (L.pageAlloc t.localmem).1 = .ok p

section Objects

variable {size : ℕ} {pg out : List ℕ} {k : MachineKmem ρ} {t : Machine ρ}

lemma i686Cpu_pageSize : (i686Cpu K L).physmemPageSize = 4096 := rfl

lemma placed_window {i : ℕ} (hi : i < 2 ^ 18) : Placed 4096 (window i) := by
  have hlt := window_lt hi
  refine ⟨?_, hlt⟩
  rw [window, highstart]
  omega

lemma window_apart {i j : ℕ} (h : i ≠ j) : Apart 4096 (window i) (window j) := by
  unfold Apart window highstart
  omega

/-- What a new slab is made of. -/
structure SlabMade (K : KernelImage) (L : Localmem ρ) (t : Machine ρ) (i f : ℕ) (l : ρ)
    (s : Machine ρ) : Prop where
  alloc : L.pageAlloc t.localmem = (.ok (f * 4096), l)
  free : f ∈ L.free t.localmem
  opens : Opens K {i} { t with localmem := l } s
  shows : Shows K s.mem i f

/-- **Finding a slab**, on the machine. -/
lemma kmemCacheFindSlab_machine_wp (h : KmemReady K L size pg out k) (hfit : Fits 4096 size) :
    Prog.wp kmemCacheFindSlab
      (fun r k' => k'.cache.ctor = k.cache.ctor ∧
        ((¬NeedsSlab k ∧ r ≠ none ∧ k'.env = k.env) ∨
        (NeedsSlab k ∧ ∃ i f l, newSlab k = [window i] ∧ r ≠ none ∧
          SlabMade K L k.env i f l k'.env) ∨
        (NeedsSlab k ∧ ¬SlabAvailable K L k.env ∧ r = none ∧
          ∃ W l, Opens K W { k.env with localmem := l } k'.env)))
      (fun _ => False) k := by
  have hcpu := h.inv.cpu
  rw [kmemCacheFindSlab, Prog.wp_bind, Prog.wp_gets]
  cases hpart : k.cache.slabsPartial with
  | cons s rest =>
      refine (Prog.wp_pure _).mpr ⟨rfl, Or.inl ⟨fun hn => ?_, Option.some_ne_none _, rfl⟩⟩
      exact absurd (hpart.symm.trans hn.1) (List.cons_ne_nil _ _)
  | nil =>
      cases hempty : k.cache.slabsEmpty with
      | cons s rest =>
          refine (Prog.wp_bind _ _).mpr ((Prog.wp_update _).mpr ((Prog.wp_pure _).mpr
            ⟨rfl, Or.inl ⟨fun hn => ?_, Option.some_ne_none _, rfl⟩⟩))
          exact absurd (hempty.symm.trans hn.2) (List.cons_ne_nil _ _)
      | nil =>
          have hneeds : NeedsSlab k := ⟨hpart, hempty⟩
          refine (Prog.wp_bind _ _).mpr ?_
          rw [callEnv, Prog.wp_zoom, hcpu]
          refine Prog.wp_mono (Prog.wp_and (Prog.wp_self (i686KernelAlloc K 1) k.env)
            (i686KernelAlloc_wp (Opens.refl k.env))) ?_ fun _ he => he.2
          rintro _ e₁ ⟨halloc, ⟨i, rfl, -, h₁, -, -⟩ | ⟨rfl, hfull, rfl⟩⟩
          · refine (Prog.wp_bind _ _).mpr ?_
            rw [callEnv, Prog.wp_zoom]
            have hlocal : e₁.localmem = k.env.localmem := h₁.localmem
            have h₂ := h₁.setLocalmem (L.pageAlloc k.env.localmem).2
            refine (Prog.wp_of_run (localmemPageAlloc_run (L := L) e₁)).mpr ?_
            rw [hlocal]
            cases hr : (L.pageAlloc k.env.localmem).1 with
            | error err =>
                refine (Prog.wp_pure _).mpr ⟨rfl, Or.inr (Or.inr ⟨hneeds, ?_, rfl, _, _, h₂⟩)⟩
                rintro ⟨-, p, hp⟩
                rw [hr] at hp
                exact absurd hp (by simp)
            | ok address =>
                rcases L.pageAlloc_ok (Prod.ext hr rfl) with ⟨f, hf, rfl, -⟩
                have hrange := L.free_range _ f hf
                have hi18 := (h₁.mem.fresh i (Finset.mem_insert_self i ∅)).1
                refine (Prog.wp_bind _ _).mpr ?_
                rw [callEnv, Prog.wp_zoom]
                refine Prog.wp_mono (i686KernelMapVirtToPhys_wp h₂ (Finset.mem_insert_self i ∅) _)
                  ?_ fun _ he => he.elim
                rintro _ e₃ ⟨-, h₃, hshows, -⟩
                rw [physAddr_frame hrange.2] at hshows
                refine (Prog.wp_bind _ _).mpr ((Prog.wp_update _).mpr ((Prog.wp_bind _ _).mpr ?_))
                refine Prog.wp_mono (kmemInitializeSlab_wp (c := i686Cpu K L) hfit hcpu
                  h.inv.objsize ?_ (placed_window hi18)) ?_ fun _ he => he.elim
                · simp [Kmem.setSlab]
                · rintro _ _ ⟨v, rfl, -⟩
                  refine (Prog.wp_bind _ _).mpr ((Prog.wp_update _).mpr ((Prog.wp_pure _).mpr ?_))
                  refine ⟨rfl, Or.inr (Or.inl ⟨hneeds, i, f, _, ?_, Option.some_ne_none _,
                    ⟨Prod.ext hr rfl, hf, h₃, hshows⟩⟩)⟩
                  have hpage : (i686Cpu K L).physmemPageAlloc.run e₁ = .ok (.ok (f * 4096),
                      { e₁ with localmem := (L.pageAlloc e₁.localmem).2 }) := by
                    rw [← hr, ← hlocal]
                    exact localmemPageAlloc_run e₁
                  have halloc' : ((i686Cpu K L).virtmemKernelAlloc 1).run k.env
                      = .ok (.ok (window i), e₁) := halloc
                  simp only [newSlab, hpart, hempty, hcpu, halloc', hpage]
          · refine (Prog.wp_pure _).mpr ⟨rfl, Or.inr (Or.inr ⟨hneeds, ?_, rfl, ∅, _, Opens.refl _⟩)⟩
            rintro ⟨hfree, -⟩
            exact hfree (by rw [hfull, Finset.card_empty])

/-- **The object of an allocation** is the first one of its slab, and is handed out as it is. -/
lemma kmemCacheTakeObject_run {ε σ : Type} {tidy : Prop} {c : Cpu ε σ} {s : ℕ} {rest : List ℕ}
    {k : Kmem ε σ} (h : Working tidy c size pg out s rest k)
    (hlt : (k.slab s).firstFree < nElements c.physmemPageSize size) :
    ∃ obj k', obj ∈ freeSlots (k.slab s) ∧ k'.env = k.env ∧ k'.cache.cpu = c ∧
      k'.cache.objsize = size ∧ k'.cache.ctor = k.cache.ctor ∧
      (kmemCacheTakeObject s).run k = (kmemCacheHandOut obj).run k' := by
  rcases (h.stock.ok s h.mem).take hlt with ⟨obj, next, hobj, hne, hnext, -, hslots, -⟩
  have hmem : obj ∈ freeSlots (k.slab s) := hslots ▸ List.mem_cons_self
  rw [kmemCacheTakeObject, Prog.run_bind_gets]
  simp only [hobj, hnext]
  rw [Prog.run_bind_assert hne, Prog.run_bind_update]
  by_cases hfull : next = 0
  · -- the slab is full now, and moves
    refine ⟨obj, { k.setSlab s { k.slab s with firstFree := (k.slab s).firstFree + 1 } with
      cache := { k.cache with slabsPartial := rest, slabsFull := s :: k.cache.slabsFull } }, hmem,
      rfl, h.cpu, h.objsize, rfl, ?_⟩
    simp only [if_pos hfull]
    rw [Prog.run_bind_gets, Kmem.setSlab_cache, h.part]
    rfl
  · refine ⟨obj, k.setSlab s { k.slab s with firstFree := (k.slab s).firstFree + 1 }, hmem, rfl,
      h.cpu, h.objsize, rfl, ?_⟩
    simp only [if_neg hfull]

/-! ## Handing out an object -/

/-- An object of `size` bytes at `obj` lies in a page that shows the frame `g`. -/
def ObjectIn (K : KernelImage) (t : Machine ρ) (size obj i g : ℕ) : Prop :=
  Shows K t.mem i g ∧ ∃ o, obj = window i + o ∧ o + size ≤ 4096

/-- The place of each byte of an object. -/
def objectLocs (g obj : ℕ) : ℕ → ℕ × ℕ := fun n => (g, obj % 4096 + n)

/-- The machine after the object was zeroed. -/
def Machine.zeroObject (t : Machine ρ) (size obj g : ℕ) : Machine ρ :=
  { t with mem := storeBytes t.mem (objectLocs g obj) (fun _ => 0) size }

lemma window_offset {i o : ℕ} (ho : o < 4096) : (window i + o) % 4096 = o := by
  unfold window highstart
  omega

/-- **Zeroing an object.** -/
lemma memset_object_run {obj i g : ℕ} (h : Running K t) (hobj : ObjectIn K t size obj i g)
    (hg : PlainFrame K t.cr3 g) :
    (memset obj 0 size).run t = .ok ((), t.zeroObject size obj g) := by
  rcases hobj with ⟨hshows, o, rfl, ho⟩
  have hmem : t.mem = storeBytes t.mem (objectLocs g (window i + o)) (fun _ => 0 % 256) 0 := rfl
  have hrun := memset_run (v := window i + o) (n := size) h hmem ?_
  · rwa [Nat.zero_add] at hrun
  · intro n hn
    rw [Nat.zero_add]
    refine ⟨⟨i, hshows, ?_, ?_⟩, hg⟩
    · simp only [objectLocs, window_offset (i := i) (o := o) (by omega)]
      omega
    · simp only [objectLocs, window_offset (i := i) (o := o) (by omega)]
      omega

/-- **Handing out an object** is zeroing and constructing it. -/
lemma kmemCacheHandOut_machine_wp {obj i g : ℕ} {ctor : ℕ → MachineProg ρ Unit}
    {R : Machine ρ → Prop} {F : MachineFault → Prop} (hcpu : k.cache.cpu = i686Cpu K L)
    (hsize : k.cache.objsize = size) (hctor : k.cache.ctor = some ctor) (hrun : Running K k.env)
    (hobj : ObjectIn K k.env size obj i g) (hg : PlainFrame K k.env.cr3 g)
    (hR : Prog.wp (ctor obj) (fun _ e => R e) F (k.env.zeroObject size obj g)) :
    Prog.wp (kmemCacheHandOut obj)
      (fun r k' => r = some obj ∧ k'.cache.ctor = k.cache.ctor ∧ R k'.env)
      (fun e => ∃ e', e = .env e' ∧ F e') k := by
  rw [kmemCacheHandOut, Prog.wp_bind, Prog.wp_gets, Prog.wp_bind, callEnv, Prog.wp_zoom, hsize, hcpu]
  refine (Prog.wp_of_run (memset_object_run hrun hobj hg)).mpr ?_
  rw [Prog.wp_bind, hctor, callHook, callEnv, Prog.wp_zoom]
  refine Prog.wp_mono hR ?_ fun e he => ⟨e, rfl, he⟩
  rintro _ e he
  refine (Prog.wp_bind _ _).mpr ((Prog.wp_update _).mpr ((Prog.wp_pure _).mpr ⟨rfl, hctor, he⟩))

/-! ## Allocating -/

lemma newSlab_of_not_needs (h : ¬NeedsSlab k) : newSlab k = [] := by
  rw [newSlab]
  split
  · next hpart hempty => exact absurd ⟨hpart, hempty⟩ h
  · rfl

/-- The page of a new slab is a kernel page that was not present. -/
lemma newSlab_window (hcpu : k.cache.cpu = i686Cpu K L) {v : ℕ} (hv : v ∈ newSlab k) :
    ∃ i < 2 ^ 18, v = window i ∧ Entry.present.get (kernelFlatpt K k.env.mem i) = 0 := by
  rw [newSlab, hcpu] at hv
  split at hv
  · split at hv
    · next vaddr e halloc =>
        have halloc' : (i686KernelAlloc K 1).run k.env = .ok (.ok vaddr, e) := halloc
        split at hv
        · rw [List.mem_singleton] at hv
          rcases Prog.wp_run (i686KernelAlloc_wp (Opens.refl k.env)) halloc' with
            ⟨i, hi, -, hopens, -⟩ | ⟨herr, -⟩
          · have hfresh := hopens.mem.fresh i (Finset.mem_insert_self i ∅)
            exact ⟨i, hfresh.1, by rw [hv, Except.ok.inj hi], hfresh.2⟩
          · exact absurd herr (by simp)
        · exact absurd hv (List.not_mem_nil)
    · exact absurd hv (List.not_mem_nil)
  · exact absurd hv (List.not_mem_nil)

lemma SlabPage.placed {s : ℕ} (h : SlabPage K L t s) : Placed 4096 s := by
  rcases h with ⟨i, f, rfl, hshows, -⟩
  exact placed_window hshows.lt

/-- A window that was not present is none of the slabs. -/
lemma KmemReady.freshSupply (h : KmemReady K L size pg out k) : FreshSupply 4096 pg k := by
  intro v hv
  rcases newSlab_window h.inv.cpu hv with ⟨i, hi, rfl, h0⟩
  refine ⟨placed_window hi, fun s hs => ?_⟩
  rcases h.pages s hs with ⟨j, f, rfl, hshows, -⟩
  refine window_apart ?_
  rintro rfl
  rw [hshows.present] at h0
  exact absurd h0 (by norm_num)

/-- Slab pages stay slab pages while windows are opened and frames are taken. -/
lemma SlabPage.opened {s : ℕ} {W : Finset ℕ} {l : ρ} {t' : Machine ρ} (h : SlabPage K L t s)
    (hopens : Opens K W { t with localmem := l } t') (hfree : L.free l ⊆ L.free t.localmem) :
    SlabPage K L t' s := by
  rcases h with ⟨i, f, rfl, hshows, hplain, hf⟩
  refine ⟨i, f, rfl, hshows.opened hopens.mem, ?_, ?_⟩
  · rw [hopens.cr3]
    exact hplain
  · rw [hopens.localmem]
    exact fun hl => hf (hfree hl)

lemma SlabPage.zeroObject {s obj g : ℕ} (h : SlabPage K L t s) (hg : ¬K.HoldsTable g) :
    SlabPage K L (t.zeroObject size obj g) s := by
  rcases h with ⟨i, f, rfl, hshows, hplain, hf⟩
  refine ⟨i, f, rfl, hshows.congr ?_, hplain, hf⟩
  refine storeBytes_of_frame_ne ?_
  intro n hn heq
  have hg' : g = K.kernelPts + i / 1024 := heq
  exact hg (hg' ▸ holdsTable_of_lt hshows.lt)

/-- **The machine on which the constructor runs**: `W` is the window of a new slab, if one was
needed, `l` what is left of `localmem`, and `g` the frame of the slab that the object is in. -/
structure ObjectTaken (K : KernelImage) (L : Localmem ρ) (size : ℕ) (pg : List ℕ)
    (k : MachineKmem ρ) (obj : ℕ) (W : Finset ℕ) (l : ρ) (g : ℕ) (t : Machine ρ) : Prop where
  supply : (¬NeedsSlab k ∧ W = ∅ ∧ l = k.env.localmem) ∨
    (NeedsSlab k ∧ W.card = 1 ∧ ∃ f ∈ L.free k.env.localmem,
      L.pageAlloc k.env.localmem = (.ok (f * 4096), l))
  opens : ∃ mem, (∀ f ≠ g, ∀ w, mem f w = k.env.mem f w) ∧
    Opens K W { k.env with mem := mem, localmem := l } t
  object : ∃ i, window i ∈ newSlab k ++ pg ∧ ObjectIn K t size obj i g
  pages : ∀ s ∈ newSlab k ++ pg, SlabPage K L t s

/-- The slabs after a slab was found. -/
lemma SlabMade.pages (h : KmemReady K L size pg out k) {i f : ℕ} {l : ρ} {s : Machine ρ}
    (hmade : SlabMade K L k.env i f l s) (hnew : newSlab k = [window i]) :
    ∀ v ∈ newSlab k ++ pg, SlabPage K L s v := by
  have hfree : L.free l ⊆ L.free k.env.localmem := by
    have hsub := L.pageAlloc_free (l := k.env.localmem)
    rwa [hmade.alloc] at hsub
  rw [hnew]
  refine List.forall_mem_cons.mpr ⟨?_, fun v hv => (h.pages v hv).opened hmade.opens hfree⟩
  refine ⟨i, f, rfl, hmade.shows, ?_, ?_⟩
  · rw [hmade.opens.cr3]
    exact h.wipe f hmade.free
  · rcases L.pageAlloc_ok hmade.alloc with ⟨f', -, heq, hf'⟩
    rw [hmade.opens.localmem]
    have hff' : f = f' := Nat.eq_of_mul_eq_mul_right (by norm_num) heq
    rwa [hff']

/-- The frame `g` of a slab was handed out for it now or before. -/
def FrameFrom (K : KernelImage) (L : Localmem ρ) (pg : List ℕ) (k : MachineKmem ρ) (g : ℕ) :
    Prop :=
  g ∈ L.free k.env.localmem ∨ ∃ i, window i ∈ pg ∧ Shows K k.env.mem i g

/-- Where the frames of the slabs come from. -/
def SlabFrames (K : KernelImage) (L : Localmem ρ) (pg : List ℕ) (k : MachineKmem ρ)
    (t : Machine ρ) : Prop :=
  ∀ i g, window i ∈ newSlab k ++ pg → Shows K t.mem i g → FrameFrom K L pg k g

/-- A slab of before shows what it did. -/
lemma KmemReady.slabFrame (h : KmemReady K L size pg out k) {W : Finset ℕ} {l : ρ} {i g : ℕ}
    (hopens : Opens K W { k.env with localmem := l } t) (hi : window i ∈ pg)
    (hshows : Shows K t.mem i g) : FrameFrom K L pg k g := by
  rcases h.pages _ hi with ⟨j, f, hij, hshows', -⟩
  obtain rfl : i = j := window_inj hij
  have hkept : Shows K t.mem i f := hshows'.opened hopens.mem
  obtain rfl : g = f := hshows.frame.symm.trans hkept.frame
  exact Or.inr ⟨i, hi, hshows'⟩

/-- **Allocating an object on the i686**: `NULL` when a new slab is needed and not available, and
otherwise what the constructor makes of the object. -/
lemma commonKmemCacheAlloc_machine_wp (h : KmemReady K L size pg out k) (hfit : Fits 4096 size)
    {ctor : ℕ → MachineProg ρ Unit} (hctor : k.cache.ctor = some ctor)
    {R : ℕ → Machine ρ → Prop} {F : MachineFault → Prop}
    (hR : ∀ obj W l g t, obj ≠ 0 → ObjectTaken K L size pg k obj W l g t →
      SlabFrames K L pg k t → Prog.wp (ctor obj) (fun _ e => R obj e) F t) :
    Prog.wp commonKmemCacheAlloc
      (fun r k' => (r = none ∧ NeedsSlab k ∧ ¬SlabAvailable K L k.env) ∨
        ∃ obj, r = some obj ∧ obj ≠ 0 ∧ k'.cache.ctor = some ctor ∧ R obj k'.env)
      (fun e => ∃ e', e = .env e' ∧ F e') k := by
  rw [commonKmemCacheAlloc, Prog.wp_bind]
  refine Prog.wp_mono (Prog.wp_and (kmemCacheFindSlab_wp hfit h.inv h.freshSupply)
    (kmemCacheFindSlab_machine_wp h hfit)) ?_ fun _ he => he.2.elim
  rintro r k₁ ⟨hfind, hctor₁, hcases⟩
  cases r with
  | none =>
      rcases hcases with ⟨-, hr, -⟩ | ⟨-, -, -, -, -, hr, -⟩ | ⟨hneeds, hnot, -⟩
      · exact absurd rfl hr
      · exact absurd rfl hr
      · exact (Prog.wp_pure _).mpr (Or.inl ⟨rfl, hneeds, hnot⟩)
  | some s =>
      rcases hfind with ⟨rest, hworking, hlt⟩
      -- the machine below, with or without a new slab
      have hsupply : ∃ W l, ((¬NeedsSlab k ∧ W = ∅ ∧ l = k.env.localmem) ∨
          (NeedsSlab k ∧ W.card = 1 ∧ ∃ f ∈ L.free k.env.localmem,
            L.pageAlloc k.env.localmem = (.ok (f * 4096), l))) ∧
          Opens K W { k.env with localmem := l } k₁.env ∧
          (∀ v ∈ newSlab k ++ pg, SlabPage K L k₁.env v) ∧ SlabFrames K L pg k k₁.env := by
        rcases hcases with ⟨hneeds, -, henv⟩ | ⟨hneeds, i, f, l, hnew, -, hmade⟩ | ⟨-, -, hr, -⟩
        · rw [henv, newSlab_of_not_needs hneeds, SlabFrames, newSlab_of_not_needs hneeds]
          exact ⟨∅, _, Or.inl ⟨hneeds, rfl, rfl⟩, Opens.refl _, h.pages,
            fun i g hi hshows => h.slabFrame (Opens.refl _) hi hshows⟩
        · refine ⟨{i}, l, Or.inr ⟨hneeds, Finset.card_singleton i, f, hmade.free, hmade.alloc⟩,
            hmade.opens, hmade.pages h hnew, fun j g hj hshows => ?_⟩
          rw [hnew] at hj
          rcases List.mem_cons.mp hj with hj | hj
          · obtain rfl : j = i := window_inj hj
            obtain rfl : g = f := hshows.frame.symm.trans hmade.shows.frame
            exact Or.inl hmade.free
          · exact h.slabFrame hmade.opens hj hshows
        · exact absurd hr (Option.some_ne_none s)
      rcases hsupply with ⟨W, l, hsupply, hopens, hpages, hframes⟩
      have hrun₁ : Running K k₁.env := hopens.running ⟨h.running.linked, h.running.apart⟩
      rcases kmemCacheTakeObject_run hworking hlt with
        ⟨obj, k₂, hobj, henv, hcpu, hsize, hctor₂, htake⟩
      -- the object lies in the page of one of the slabs
      have hmem : obj ∈ (newSlab k ++ pg).flatMap (slabObjects 4096 size) :=
        hworking.stock.objects.mem_iff.mp
          (List.mem_append_right _ (List.mem_flatMap.mpr ⟨s, hworking.mem, hobj⟩))
      rcases List.mem_flatMap.mp hmem with ⟨v, hv, hobjv⟩
      have hwithin := slabObjects_within hfit (hpages v hv).placed hobjv
      rcases hpages v hv with ⟨i, g, rfl, hshows, hplain, -⟩
      have hin : ObjectIn K k₁.env size obj i g := by
        refine ⟨hshows, obj - window i, ?_, ?_⟩
        · omega
        · omega
      have hne : obj ≠ 0 := by
        rw [sizeofKmemSlab] at hwithin
        omega
      rw [Prog.wp_congr htake]
      refine Prog.wp_mono (kmemCacheHandOut_machine_wp (R := R obj) (F := F) hcpu hsize
        (hctor₂.trans (hctor₁.trans hctor)) (henv ▸ hrun₁) (henv ▸ hin) (henv ▸ hplain) ?_) ?_
        fun _ he => he
      · rw [henv]
        have hflat : ∀ j < 2 ^ 18, kernelFlatpt K (k₁.env.zeroObject size obj g).mem j
            = kernelFlatpt K k₁.env.mem j := by
          intro j hj
          refine storeBytes_of_frame_ne fun _ _ heq => hplain.notTable ?_
          have hg : g = K.kernelPts + j / 1024 := heq
          rw [hg]
          exact holdsTable_of_lt hj
        refine hR obj W l g _ hne ⟨hsupply, ⟨_, ?_, hopens.storeBytes fun _ _ => hplain.notTable⟩,
          ?_, fun v hv => (hpages v hv).zeroObject hplain.notTable⟩
          fun j g' hj hshows' => hframes j g' hj (hshows'.congr (hflat j hshows'.lt).symm)
        · intro f hf w
          exact storeBytes_of_frame_ne fun _ _ heq => hf heq.symm
        · exact ⟨i, hv, hshows.congr (hflat i hshows.lt), hin.2⟩
      · rintro r k₃ ⟨hr, hctor₃, hR'⟩
        exact Or.inr ⟨obj, hr, hne, hctor₃.trans (hctor₂.trans (hctor₁.trans hctor)), hR'⟩

end Objects

end Akaris
