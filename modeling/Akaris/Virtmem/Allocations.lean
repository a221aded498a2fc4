import Akaris.Virtmem.Failures
import Akaris.Virtmem.Objects

/-!
# Allocating regions, address spaces and threads

`memory_region_alloc`, `address_space_alloc` and `i686_thread_alloc` take an object from their
cache.  The first two ask whether the variable they were to store it in has an address, and the
third does not ask at all, so none of them ever says that memory ran out.

* **`object_failure_reported_iff`** — they do as they should exactly when there is nothing to
  report: the cache has an object or can have a slab, and for an address space there are also a
  frame for its page directory and the windows to set it up.
-/

namespace Akaris

variable {ρ : Type} {K : KernelImage} {L : Localmem ρ}

-- the rules are all that is used of it: computing it would run the program
attribute [local irreducible] Prog.wp

/-- The cache has an object, or can have a slab. -/
def ObjectAvailable (K : KernelImage) (L : Localmem ρ) (k : MachineKmem ρ) : Prop :=
  NeedsSlab k → SlabAvailable K L k.env

/-- An allocation gives a pointer other than `NULL`, or says that there is no memory. -/
def Reported {E : Type} (oom : E) (x : KmemProg MachineFault (Machine ρ) (Except E ℕ))
    (k : MachineKmem ρ) : Prop :=
  ∃ r k', x.run k = .ok (r, k') ∧ ((∃ obj, obj ≠ 0 ∧ r = .ok obj) ∨ r = .error oom)

section Allocations

variable {size : ℕ} {pg out : List ℕ} {k : MachineKmem ρ} {t : Machine ρ}

/-- A slab that is needed but not available leaves the object missing. -/
lemma not_objectAvailable (h : NeedsSlab k ∧ ¬SlabAvailable K L k.env) :
    ¬ObjectAvailable K L k := fun hobj => h.2 (hobj h.1)

lemma freeWindows_setPdes {mem : PhysMem} {d cur n : ℕ} (hd : ¬K.HoldsTable d) :
    freeWindows K (setPdes K mem d cur n) = freeWindows K mem := by
  refine freeWindows_congr fun f w hf => setPdes_of_frame_ne ?_
  rintro rfl
  exact hd hf

lemma freeWindows_zeroFrame {mem : PhysMem} {d : ℕ} (hd : ¬K.HoldsTable d) :
    freeWindows K (zeroFrame mem d) = freeWindows K mem := by
  refine freeWindows_congr fun f w hf => zeroFrame_of_ne ?_
  rintro rfl
  exact hd hf

section Taken

variable {obj : ℕ} {W : Finset ℕ} {l : ρ} {g : ℕ}

lemma ObjectTaken.plain (h : ObjectTaken K L size pg k obj W l g t) : PlainFrame K t.cr3 g := by
  rcases h.object with ⟨i, hi, hshows, -⟩
  rcases h.pages _ hi with ⟨j, f, hij, hshows', hplain, -⟩
  have heq : g = f := by
    rw [← hshows.frame, ← hshows'.frame, window_inj hij]
  rwa [heq]

lemma ObjectTaken.freeWindows (h : ObjectTaken K L size pg k obj W l g t) :
    freeWindows K t.mem + W.card = freeWindows K k.env.mem := by
  rcases h.opens with ⟨mem, hmem, hopens⟩
  rw [hopens.mem.freeWindows]
  refine freeWindows_congr fun f w hf => hmem f ?_ w
  rintro rfl
  exact h.plain.notTable hf

lemma ObjectTaken.localmem (h : ObjectTaken K L size pg k obj W l g t) : t.localmem = l := by
  rcases h.opens with ⟨mem, -, hopens⟩
  exact hopens.localmem

/-- An object that was taken was available. -/
lemma ObjectTaken.available (h : ObjectTaken K L size pg k obj W l g t) : ObjectAvailable K L k := by
  intro hneeds
  rcases h.supply with ⟨hn, -⟩ | ⟨-, hcard, f, -, halloc⟩
  · exact absurd hneeds hn
  · have hfree := h.freeWindows
    exact ⟨by omega, f * 4096, by rw [halloc]⟩

lemma ObjectTaken.free_subset (h : ObjectTaken K L size pg k obj W l g t) :
    L.free l ⊆ L.free k.env.localmem := by
  rcases h.supply with ⟨-, -, rfl⟩ | ⟨-, -, f, -, halloc⟩
  · exact Set.Subset.rfl
  · have hsub := L.pageAlloc_free (l := k.env.localmem)
    rwa [halloc] at hsub

lemma ObjectTaken.running (h : ObjectTaken K L size pg k obj W l g t) (hrun : Running K k.env) :
    Running K t := by
  rcases h.opens with ⟨mem, hmem, hopens⟩
  have hcr3 : t.cr3 = k.env.cr3 := hopens.cr3
  have hne : k.env.cr3 / 4096 ≠ g := by
    rw [← hcr3]
    exact Ne.symm h.plain.notRunning
  have hrun' : Running K { k.env with mem := mem } := hrun.congr fun w => hmem _ hne w
  exact hopens.running ⟨hrun'.linked, hrun'.apart⟩

lemma ObjectTaken.canWipe (h : ObjectTaken K L size pg k obj W l g t) (hwipe : CanWipe K L k.env) :
    CanWipe K L t := by
  rcases h.opens with ⟨mem, -, hopens⟩
  intro f hf
  rw [h.localmem] at hf
  have hcr3 : t.cr3 = k.env.cr3 := hopens.cr3
  rw [hcr3]
  exact hwipe f (h.free_subset hf)

end Taken

/-! ## Regions and threads -/

/-- **`memory_region_alloc`** stores `NULL` exactly when there is no object. -/
lemma memoryRegionAlloc_wp (h : KmemReady K L size pg out k) (hfit : Fits 4096 size)
    (hctor : k.cache.ctor = some i686MemoryRegionCtor) :
    Prog.wp memoryRegionAlloc
      (fun r _ => (r = .ok 0 ∧ ¬ObjectAvailable K L k) ∨
        ∃ obj, r = .ok obj ∧ obj ≠ 0 ∧ ObjectAvailable K L k)
      (fun _ => False) k := by
  rw [memoryRegionAlloc, Prog.wp_bind]
  refine Prog.wp_mono (commonKmemCacheAlloc_machine_wp h hfit hctor
    (R := fun _ _ => ObjectAvailable K L k) (F := fun _ => False) ?_) ?_ ?_
  · intro obj W l g t _ htaken _
    exact (Prog.wp_pure _).mpr htaken.available
  · rintro r k' (⟨rfl, hnone⟩ | ⟨obj, rfl, hne, -, havail⟩)
    · exact (Prog.wp_pure _).mpr (Or.inl ⟨rfl, not_objectAvailable hnone⟩)
    · exact (Prog.wp_pure _).mpr (Or.inr ⟨obj, rfl, hne, havail⟩)
  · rintro _ ⟨_, -, hfalse⟩
    exact hfalse

/-- Stores to an object, one word after the other. -/
lemma storeWords_wp {i g o : ℕ} {ws : List Word} (hrun : Running K t) (hs : Shows K t.mem i g)
    (hg : PlainFrame K t.cr3 g) (ho : o + 4 * ws.length ≤ 4096) :
    Prog.wp (storeWords (wrap32 (window i + o)) ws) (fun _ _ => True) (fun _ => False) t := by
  induction ws generalizing t o with
  | nil => exact (Prog.wp_pure _).mpr trivial
  | cons x ws ih =>
      rw [List.length_cons] at ho
      have hreach : Reaches K t.mem (window i + o) (g, o) := hs.reaches (by omega)
      rw [wrap32_of_lt hreach.lt, storeWords, Prog.wp_bind]
      have hstore : (modifyWord (window i + o) fun _ => x).run t
          = .ok ((), { t with mem := t.mem.write g (o / 4) x }) := by
        rw [modifyWord, Prog.run_bind_ok (accessFrame_run hrun hreach), Prog.run_update,
          hreach.offset]
      rw [Prog.wp_of_run hstore, show window i + o + 4 = window i + (o + 4) by omega]
      exact ih (hrun.write hg) (hs.write hg.notTable) hg (by omega)

/-- **`i686_thread_alloc`** stores through a null pointer exactly when there is no object. -/
lemma i686ThreadAlloc_wp (h : KmemReady K L sizeofI686Thread pg out k)
    (hctor : k.cache.ctor = some i686InitThreadVfuncs) :
    Prog.wp i686ThreadAlloc
      (fun r _ => ∃ obj, r = .ok obj ∧ obj ≠ 0 ∧ ObjectAvailable K L k)
      (fun e => e = .env .nullDereference ∧ ¬ObjectAvailable K L k) k := by
  have hfit : Fits 4096 sizeofI686Thread := ⟨by decide, by decide, by decide⟩
  rw [i686ThreadAlloc, Prog.wp_bind]
  refine Prog.wp_mono (commonKmemCacheAlloc_machine_wp h hfit hctor
    (R := fun obj e => ObjectAvailable K L k ∧ Running K e ∧
      ∃ i g, ObjectIn K e sizeofI686Thread obj i g ∧ PlainFrame K e.cr3 g)
    (F := fun _ => False) ?_) ?_ ?_
  · intro obj W l g t _ htaken _
    rcases htaken.object with ⟨i, -, hobj⟩
    exact (Prog.wp_pure _).mpr
      ⟨htaken.available, htaken.running h.running, i, g, hobj, htaken.plain⟩
  · rintro r k' (⟨rfl, hnone⟩ | ⟨obj, rfl, hne, -, havail, hrun, i, g, ⟨hshows, o, rfl, ho⟩, hg⟩)
    · exact (Prog.wp_fault _).mpr ⟨rfl, not_objectAvailable hnone⟩
    · refine (Prog.wp_bind _ _).mpr ?_
      rw [callEnv, Prog.wp_zoom, Nat.add_assoc]
      refine Prog.wp_mono (storeWords_wp hrun hshows hg ?_) ?_ fun _ he => he.elim
      · simp only [sizeofI686Thread, newContext, List.length_cons, List.length_nil] at ho ⊢
        omega
      · rintro _ s' -
        exact (Prog.wp_pure _).mpr ⟨_, rfl, hne, havail⟩
  · rintro _ ⟨_, -, hfalse⟩
    exact hfalse.elim

/-! ## Address spaces -/

/-- What `localmem` is when the page directory is taken. -/
def localmemForPd (L : Localmem ρ) (k : MachineKmem ρ) : ρ :=
  if NeedsSlab k then (L.pageAlloc k.env.localmem).2 else k.env.localmem

/-- The number of kernel pages that setting up an address space takes: one for a new slab, one to
wipe the page directory, and two to link it. -/
def windowsForSpace (k : MachineKmem ρ) : ℕ :=
  if NeedsSlab k then 4 else 3

/-- There are an object, a frame for the page directory and enough kernel pages. -/
def SpaceAvailable (K : KernelImage) (L : Localmem ρ) (k : MachineKmem ρ) : Prop :=
  ObjectAvailable K L k ∧ windowsForSpace k ≤ freeWindows K k.env.mem ∧
    ∃ p, (L.pageAlloc (localmemForPd L k)).1 = .ok p

lemma ObjectTaken.localmemForPd {obj : ℕ} {W : Finset ℕ} {l : ρ} {g : ℕ}
    (h : ObjectTaken K L size pg k obj W l g t) :
    localmemForPd L k = l ∧ W.card + 3 = windowsForSpace k := by
  rcases h.supply with ⟨hn, rfl, rfl⟩ | ⟨hneeds, hcard, f, -, halloc⟩
  · rw [Akaris.localmemForPd, windowsForSpace, if_neg hn, if_neg hn]
    exact ⟨rfl, rfl⟩
  · rw [Akaris.localmemForPd, windowsForSpace, if_pos hneeds, if_pos hneeds, halloc, hcard]
    exact ⟨rfl, rfl⟩

/-- **The machine after an address space was made**, from the machine `t` on which its object was
taken: the page directory is in frame `f`, wiped and linked, and three windows were opened. -/
structure SpaceMade (K : KernelImage) (L : Localmem ρ) (t : Machine ρ) (as f : ℕ)
    (s : Machine ρ) : Prop where
  free : f ∈ L.free t.localmem
  alloc : ∃ l W, L.pageAlloc t.localmem = (.ok (f * 4096), l) ∧ W.card = 3 ∧
    Opens K W { t with
      mem := setPdes K (zeroFrame t.mem f) f 768 256
      localmem := l
      as := Function.update t.as as ⟨f * 4096, []⟩ } s

/-- Linking the page directory that the constructor left. -/
lemma setupSpace_wp {as f p : ℕ} {l : ρ} {e : Machine ρ} (hp : p = f * 4096) (hrun : Running K t)
    (hwipe : CanWipe K L t) (hf : f ∈ L.free t.localmem) (halloc : L.pageAlloc t.localmem = (.ok (f * 4096), l))
    (he : (∃ i, Opens K {i} { t.setPd as f l with mem := zeroFrame t.mem f } e) ∨
      freeWindows K t.mem = 0 ∧ e = t.setPd as f l) :
    Prog.wp (i686SetupKernelspace K p)
      (fun r s => r = .ok () ∧ 3 ≤ freeWindows K t.mem ∧ SpaceMade K L t as f s)
      (fun _ => freeWindows K t.mem < 3)
      { e with as := Function.update e.as as { e.as as with regions := [] } } := by
  have hplain := hwipe f hf
  have hrange := L.free_range _ f hf
  have hframe : f * 4096 / 4096 % 2 ^ 20 = f := physAddr_frame hrange.2
  have hzero : freeWindows K (zeroFrame t.mem f) = freeWindows K t.mem :=
    freeWindows_zeroFrame hplain.notTable
  have hrun₀ : Running K { t.setPd as f l with mem := zeroFrame t.mem f } := by
    have hrun' := hrun.zeroFrame hplain
    exact ⟨hrun'.linked, hrun'.apart⟩
  have hnot : ¬K.HoldsTable (p / 4096 % 2 ^ 20) := by
    rw [hp, hframe]
    exact hplain.notTable
  rcases he with ⟨i, hopens⟩ | ⟨hfull, rfl⟩
  · have hfree : freeWindows K e.mem + 1 = freeWindows K t.mem := by
      rw [← hzero, ← hopens.mem.freeWindows, Finset.card_singleton]
    have hrune : Running K e := hopens.running hrun₀
    have hrune' : Running K { e with
        as := Function.update e.as as { e.as as with regions := [] } } :=
      ⟨hrune.linked, hrune.apart⟩
    refine Prog.wp_mono (i686SetupKernelspace_wp hrune' hnot) ?_ ?_
    · rintro r s ⟨hr, i', j', hij, hopens'⟩
      rw [hp, hframe] at hopens'
      have hlinked : Opened K {i} (setPdes K (zeroFrame t.mem f) f 768 256)
          (setPdes K e.mem f 768 256) := (hopens.setPdes hplain.notTable).mem
      have hall := hlinked.trans hopens'.mem
      have hcard : freeWindows K s.mem + ({j', i'} : Finset ℕ).card
          = freeWindows K (setPdes K e.mem f 768 256) := hopens'.mem.freeWindows
      have hcard' := hall.freeWindows
      rw [Finset.card_pair (Ne.symm hij), freeWindows_setPdes hplain.notTable] at hcard
      rw [freeWindows_setPdes hplain.notTable, hzero] at hcard'
      refine ⟨hr, by omega, hf, l, _, halloc, ?_, hall, ?_, ?_, ?_⟩
      · omega
      · rw [hopens'.cr3]
        exact hopens.cr3
      · rw [hopens'.localmem]
        exact hopens.localmem
      · have heas : e.as = Function.update t.as as { t.as as with pd := f * 4096 } := hopens.as
        rw [hopens'.as]
        show Function.update e.as as { e.as as with regions := [] } = _
        rw [heas, Function.update_self, Function.update_idem]
    · rintro _ ⟨-, hfew⟩
      have hfew' : freeWindows K e.mem < 2 := hfew
      omega
  · refine Prog.wp_mono (i686SetupKernelspace_wp ⟨hrun.linked, hrun.apart⟩ hnot) ?_ ?_
    · rintro r s ⟨-, i', j', hij, hopens'⟩
      rw [hp, hframe] at hopens'
      have hcard : freeWindows K s.mem + ({j', i'} : Finset ℕ).card
          = freeWindows K (setPdes K t.mem f 768 256) := hopens'.mem.freeWindows
      rw [Finset.card_pair (Ne.symm hij), freeWindows_setPdes hplain.notTable] at hcard
      omega
    · rintro _ -
      omega

/-- **`address_space_alloc`** makes an address space when it has all it needs, and otherwise stops:
it never returns `AS_OOM`. -/
lemma addressSpaceAlloc_wp (h : KmemReady K L size pg out k) (hfit : Fits 4096 size)
    (hctor : k.cache.ctor = some (i686AddressSpaceCtor K L)) :
    Prog.wp (addressSpaceAlloc K)
      (fun r k' => SpaceAvailable K L k ∧ ∃ as W l g t f, r = .ok as ∧ as ≠ 0 ∧
        ObjectTaken K L size pg k as W l g t ∧ SpaceMade K L t as f k'.env ∧
        SlabFrames K L pg k t ∧ k'.cache.ctor = k.cache.ctor)
      (fun _ => ¬SpaceAvailable K L k) k := by
  rw [addressSpaceAlloc, Prog.wp_bind]
  refine Prog.wp_mono (commonKmemCacheAlloc_machine_wp h hfit hctor
    (R := fun as e => ∃ W l g t f l', ObjectTaken K L size pg k as W l g t ∧
      SlabFrames K L pg k t ∧ f ∈ L.free t.localmem ∧ L.pageAlloc t.localmem = (.ok (f * 4096), l') ∧
      ((∃ i, Opens K {i} { t.setPd as f l' with mem := zeroFrame t.mem f } e) ∨
        freeWindows K t.mem = 0 ∧ e = t.setPd as f l'))
    (F := fun _ => ¬SpaceAvailable K L k) ?_) ?_ ?_
  · intro as W l g t _ htaken hframes
    refine Prog.wp_mono (i686AddressSpaceCtor_wp (htaken.running h.running)
      (htaken.canWipe h.wipe) as) ?_ ?_
    · rintro _ e ⟨f, hf, l', halloc, he⟩
      exact ⟨W, l, g, t, f, l', htaken, hframes, hf, halloc, he⟩
    · rintro _ ⟨-, err, herr⟩ ⟨-, -, p, hp⟩
      rw [htaken.localmemForPd.1, ← htaken.localmem, herr] at hp
      exact absurd hp (by simp)
  · rintro r k' (⟨rfl, hnone⟩ |
      ⟨as, rfl, hne, hctor', W, l, g, t, f, l', htaken, hframes, hf, halloc, he⟩)
    · exact (Prog.wp_fault _).mpr fun havail => not_objectAvailable hnone havail.1
    · have hpd : (k'.env.as as).pd = f * 4096 := by
        rcases he with ⟨i, hopens⟩ | ⟨-, heq⟩
        · rw [hopens.as]
          simp [Machine.setPd]
        · rw [heq]
          simp [Machine.setPd]
      have hfree := htaken.freeWindows
      have hwindows := htaken.localmemForPd.2
      refine (Prog.wp_bind _ _).mpr ?_
      rw [callEnv, Prog.wp_zoom, Prog.wp_update, Prog.wp_bind, callEnv, Prog.wp_zoom, Prog.wp_gets,
        Prog.wp_bind, callEnv, Prog.wp_zoom]
      have hp : (Function.update k'.env.as as { k'.env.as as with regions := [] } as).pd
          = f * 4096 := by rw [Function.update_self, hpd]
      refine Prog.wp_mono (setupSpace_wp hp (htaken.running h.running) (htaken.canWipe h.wipe) hf
        halloc he) ?_ ?_
      · rintro _ s ⟨-, hthree, hmade⟩
        refine (Prog.wp_pure _).mpr ⟨⟨htaken.available, by omega, f * 4096, ?_⟩, as, W, l, g, t, f,
          rfl, hne, htaken, hmade, hframes, hctor'.trans hctor.symm⟩
        rw [htaken.localmemForPd.1, ← htaken.localmem, halloc]
      · rintro _ hfew ⟨-, henough, -⟩
        omega
  · rintro _ ⟨_, -, hnot⟩
    exact hnot

/-- A page directory in frame `f` that was wiped and linked to the kernel half. -/
structure FreshDirectory (K : KernelImage) (L : Localmem ρ) (s : Machine ρ) (as f : ℕ) : Prop where
  pd : (s.as as).pd = f * 4096
  taken : f ∉ L.free s.localmem
  wiped : ∀ w < 768, s.mem f w = 0
  linked : LinksKernel K s.mem f

lemma SpaceMade.directory {as f : ℕ} {s : Machine ρ} (h : SpaceMade K L t as f s)
    (hwipe : CanWipe K L t) : FreshDirectory K L s as f := by
  have hplain := hwipe f h.free
  rcases h.alloc with ⟨l, W, halloc, -, hopens⟩
  refine ⟨?_, ?_, ?_, ?_⟩
  · rw [hopens.as]
    simp
  · rcases L.pageAlloc_ok halloc with ⟨f', -, heq, hf'⟩
    have hff' : f = f' := Nat.eq_of_mul_eq_mul_right (by norm_num) heq
    rw [hopens.localmem, hff']
    exact hf'
  · intro w hw
    rw [hopens.outside hplain.notTable]
    show setPdes K (zeroFrame t.mem f) f 768 256 f w = 0
    rw [setPdes_of_lt hw, zeroFrame_self (by omega)]
  · intro m hm
    rw [hopens.outside hplain.notTable]
    exact setPdes_linksKernel m hm

/-- An address space is allocated with a page directory of its own, or there is said to be no
memory. -/
def SpaceReported (K : KernelImage) (L : Localmem ρ) (k : MachineKmem ρ) : Prop :=
  ∃ r k', (addressSpaceAlloc K).run k = .ok (r, k') ∧
    ((∃ as f, r = .ok as ∧ as ≠ 0 ∧ f ∈ L.free k.env.localmem ∧ FreshDirectory K L k'.env as f) ∨
      r = .error .oom)

/-- **Failing allocations are not reported.**  `memory_region_alloc`, `i686_thread_alloc` and
`address_space_alloc`, each on its cache, keep their word exactly when nothing is missing. -/
theorem object_failure_reported_iff {kr kt ks : MachineKmem ρ} {pr pt ps outr outt outs : List ℕ}
    {sizer sizes : ℕ} (hr : KmemReady K L sizer pr outr kr)
    (ht : KmemReady K L sizeofI686Thread pt outt kt) (hs : KmemReady K L sizes ps outs ks)
    (hfitr : Fits 4096 sizer) (hfits : Fits 4096 sizes)
    (hctorr : kr.cache.ctor = some i686MemoryRegionCtor)
    (hctort : kt.cache.ctor = some i686InitThreadVfuncs)
    (hctors : ks.cache.ctor = some (i686AddressSpaceCtor K L)) :
    (Reported .oom memoryRegionAlloc kr ↔ ObjectAvailable K L kr) ∧
    (Reported .oom i686ThreadAlloc kt ↔ ObjectAvailable K L kt) ∧
    (SpaceReported K L ks ↔ SpaceAvailable K L ks) := by
  refine ⟨⟨?_, ?_⟩, ⟨?_, ?_⟩, ⟨?_, ?_⟩⟩
  · rintro ⟨r, k', hrun, hres⟩
    rcases Prog.wp_run (memoryRegionAlloc_wp hr hfitr hctorr) hrun with
      ⟨rfl, -⟩ | ⟨obj, -, -, havail⟩
    · rcases hres with ⟨obj, hne, heq⟩ | heq
      · exact absurd (Except.ok.inj heq).symm hne
      · exact absurd heq (by simp)
    · exact havail
  · intro havail
    rcases Prog.wp_returns (memoryRegionAlloc_wp hr hfitr hctorr) with
      ⟨r, k', hrun, ⟨-, hnot⟩ | ⟨obj, hobj, hne, -⟩⟩
    · exact absurd havail hnot
    · exact ⟨r, k', hrun, Or.inl ⟨obj, hne, hobj⟩⟩
  · rintro ⟨r, k', hrun, -⟩
    rcases Prog.wp_run (i686ThreadAlloc_wp ht hctort) hrun with ⟨obj, -, -, havail⟩
    exact havail
  · intro havail
    rcases Prog.wp_returns (Prog.wp_mono (i686ThreadAlloc_wp ht hctort) (fun _ _ h => h)
      fun _ he => he.2 havail) with ⟨r, k', hrun, obj, hobj, hne, -⟩
    exact ⟨r, k', hrun, Or.inl ⟨obj, hne, hobj⟩⟩
  · rintro ⟨r, k', hrun, -⟩
    exact (Prog.wp_run (addressSpaceAlloc_wp hs hfits hctors) hrun).1
  · intro havail
    rcases Prog.wp_returns (Prog.wp_mono (addressSpaceAlloc_wp hs hfits hctors) (fun _ _ h => h)
      fun _ he => he havail) with 
      ⟨r, k', hrun, -, as, W, l, g, t, f, hres, hne, htaken, hmade, -⟩
    refine ⟨r, k', hrun, Or.inl ⟨as, f, hres, hne, ?_, hmade.directory (htaken.canWipe hs.wipe)⟩⟩
    have hfree := hmade.free
    rw [htaken.localmem] at hfree
    exact htaken.free_subset hfree

/-! ## A cache on the small machine -/

/-- A cache that was just initialised. -/
def newCache (K : KernelImage) (L : Localmem ρ) (size : ℕ) (ctor : ℕ → MachineProg ρ Unit)
    (t : Machine ρ) : MachineKmem ρ where
  cache := {
    objsize := size, used := 0, cpu := i686Cpu K L
    slabsFull := [], slabsPartial := [], slabsEmpty := []
    ctor := some ctor, dtor := none }
  slab _ := ⟨0, 0, 0, []⟩
  env := t

lemma newCache_ready (ctor : ℕ → MachineProg ρ Unit) (hrun : Running K t) (hwipe : CanWipe K L t) :
    KmemReady K L size [] [] (newCache K L size ctor t) := by
  refine ⟨⟨rfl, rfl, ⟨?_, ?_, ?_, ?_, ?_⟩, ⟨?_, ?_, ?_⟩, ?_, rfl⟩, hrun, hwipe, ?_⟩
  · simp
  · exact List.Pairwise.nil
  · simp
  · exact List.Perm.nil
  · simp
  · simp [newCache]
  · simp [newCache]
  · simp [newCache]
  · exact List.Perm.nil
  · simp

/-- A physical memory manager that hands out one frame after the other. -/
def countingLocalmem : Localmem ℕ where
  pageAlloc n := if 0 < n ∧ n < 2 ^ 20 then (.ok (n * 4096), n + 1) else (.error .oom, n)
  pageFree _ n := (.ok (), n)
  free n := { f | 0 < n ∧ n ≤ f ∧ f < 2 ^ 20 }
  free_range n f hf := ⟨by have h := hf.1; have h' := hf.2.1; omega, hf.2.2⟩
  pageAlloc_ok := by
    intro n l address h
    split_ifs at h with hn
    · simp only [Prod.mk.injEq, Except.ok.injEq] at h
      rcases h with ⟨rfl, rfl⟩
      refine ⟨n, ⟨hn.1, le_rfl, hn.2⟩, rfl, ?_⟩
      rintro ⟨-, hle, -⟩
      omega
    · simp at h
  pageAlloc_free := by
    intro n f hf
    split_ifs at hf with hn
    · exact ⟨hn.1, by have h := hf.2.1; omega, hf.2.2⟩
    · exact hf

/-- The small machine with a physical memory manager. -/
def smallMachineWith {τ : Type} (l : τ) : Machine τ where
  mem := smallMachine.mem
  cr3 := 4096
  localmem := l
  as _ := ⟨0, []⟩

lemma smallMachineWith_running {τ : Type} (l : τ) : Running smallImage (smallMachineWith l) := by
  have hcr3 : (smallMachineWith l).cr3 = 4096 := rfl
  have hframe : (smallMachineWith l).cr3 / 4096 = 1 := by rw [hcr3]
  refine ⟨?_, ?_⟩
  · rw [hframe]
    exact smallMachine_linksKernel
  · rw [hframe]
    rintro ⟨hle, -⟩
    exact absurd hle (by decide)

lemma smallMachineWith_canWipe :
    CanWipe smallImage countingLocalmem (smallMachineWith 300) := by
  rintro f ⟨-, hle, -⟩
  have hle' : 300 ≤ f := hle
  refine ⟨?_, ?_⟩
  · rintro ⟨-, hlt⟩
    have hlt' : f < 2 + 256 := hlt
    omega
  · have hcr3 : (smallMachineWith 300).cr3 / 4096 = 1 := rfl
    rw [hcr3]
    omega

lemma slabAvailable_smallMachineWith :
    SlabAvailable smallImage countingLocalmem (smallMachineWith 300) := by
  refine ⟨?_, 300 * 4096, rfl⟩
  show freeWindows smallImage smallMachine.mem ≠ 0
  rw [freeWindows_smallMachine]
  norm_num

lemma spaceAvailable_smallMachineWith : SpaceAvailable smallImage countingLocalmem
    (newCache smallImage countingLocalmem size (i686AddressSpaceCtor smallImage countingLocalmem)
      (smallMachineWith 300)) := by
  refine ⟨fun _ => slabAvailable_smallMachineWith, ?_, 301 * 4096, rfl⟩
  show 4 ≤ freeWindows smallImage smallMachine.mem
  rw [freeWindows_smallMachine]
  norm_num

end Allocations

/-- Regions, threads and address spaces on a machine with frames left. -/
theorem object_failure_reported_one :
    Reported .oom memoryRegionAlloc
      (newCache smallImage countingLocalmem 64 i686MemoryRegionCtor (smallMachineWith 300)) ∧
    Reported .oom i686ThreadAlloc (newCache smallImage countingLocalmem sizeofI686Thread
      i686InitThreadVfuncs (smallMachineWith 300)) ∧
    SpaceReported smallImage countingLocalmem (newCache smallImage countingLocalmem 64
      (i686AddressSpaceCtor smallImage countingLocalmem) (smallMachineWith 300)) := by
  have hwipe := smallMachineWith_canWipe
  have hrun : Running smallImage (smallMachineWith 300) := smallMachineWith_running 300
  have hfit : Fits 4096 64 := ⟨by decide, by decide, by decide⟩
  have h := object_failure_reported_iff
    (newCache_ready i686MemoryRegionCtor hrun hwipe)
    (newCache_ready i686InitThreadVfuncs hrun hwipe)
    (newCache_ready (i686AddressSpaceCtor smallImage countingLocalmem) hrun hwipe)
    hfit hfit rfl rfl rfl
  exact ⟨h.1.mpr fun _ => slabAvailable_smallMachineWith,
    h.2.1.mpr fun _ => slabAvailable_smallMachineWith, h.2.2.mpr spaceAvailable_smallMachineWith⟩

/-- **With no memory left**, `memory_region_alloc` succeeds with `NULL`, and the other two go on
without an object. -/
theorem object_failure_not_reported :
    ¬Reported .oom memoryRegionAlloc
      (newCache smallImage noLocalmem 64 i686MemoryRegionCtor smallMachine) ∧
    ¬Reported .oom i686ThreadAlloc
      (newCache smallImage noLocalmem sizeofI686Thread i686InitThreadVfuncs smallMachine) ∧
    ¬SpaceReported smallImage noLocalmem
      (newCache smallImage noLocalmem 64 (i686AddressSpaceCtor smallImage noLocalmem)
        smallMachine) := by
  have hrun : Running smallImage smallMachine := smallMachineWith_running ()
  have hwipe : CanWipe smallImage noLocalmem smallMachine := fun f hf => absurd hf (by simp [noLocalmem])
  have hnone : ∀ {size : ℕ} {ctor : ℕ → MachineProg Unit Unit},
      ¬ObjectAvailable smallImage noLocalmem (newCache smallImage noLocalmem size ctor smallMachine) := by
    intro size ctor havail
    rcases (havail ⟨rfl, rfl⟩).2 with ⟨p, hp⟩
    exact absurd hp (by simp [noLocalmem])
  refine ⟨?_, ?_, ?_⟩
  · rintro ⟨r, k', hrun', hres⟩
    rcases Prog.wp_run (memoryRegionAlloc_wp (newCache_ready _ hrun hwipe)
      ⟨by decide, by decide, by decide⟩ rfl) hrun' with ⟨rfl, -⟩ | ⟨obj, -, -, havail⟩
    · rcases hres with ⟨obj, hne, heq⟩ | heq
      · exact absurd (Except.ok.inj heq).symm hne
      · exact absurd heq (by simp)
    · exact hnone havail
  · rintro ⟨r, k', hrun', -⟩
    rcases Prog.wp_run (i686ThreadAlloc_wp (newCache_ready _ hrun hwipe) rfl) hrun' with
      ⟨obj, -, -, havail⟩
    exact hnone havail
  · rintro ⟨r, k', hrun', -⟩
    have havail := Prog.wp_run (addressSpaceAlloc_wp (newCache_ready _ hrun hwipe)
      ⟨by decide, by decide, by decide⟩ rfl) hrun'
    exact hnone havail.1.1

end Akaris
