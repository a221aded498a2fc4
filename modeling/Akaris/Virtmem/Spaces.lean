import Akaris.Virtmem.Allocations
import Akaris.Virtmem.Roles

/-!
# Address spaces over time

A run begins when `i686_virtmem_init` has set up `kernel_pd`, and makes any number of address
spaces in `as_cache`.  Between these it takes and maps kernel pages, sets up page directories again
and works on user pages.  `SpaceInv` is the invariant of a run: the cache is in order, and the
frames have the roles of `Akaris/Virtmem/Roles.lean`, where the page directories are those of the
address spaces.

* **`kernel_half_shared`** — the kernel half is the same in every address space at all times.
-/

namespace Akaris

variable {ρ : Type} {K : KernelImage} {L : Localmem ρ}

-- the rules are all that is used of it: computing it would run the program
attribute [local irreducible] Prog.wp

/-! ## Runs -/

/-- The frame of the page directory of an address space. -/
def directoryOf (s : Machine ρ) (as : ℕ) : ℕ := (s.as as).pd / 4096 % 2 ^ 20

/-- The frames of the page directories of some address spaces. -/
def directories (s : Machine ρ) (live : List ℕ) : Set ℕ := { d | ∃ as ∈ live, directoryOf s as = d }

/-- **The machine after `i686_virtmem_init`**: it runs in `kernel_pd`, which is linked to
`kernel_pts`; kernel pages are zero unless they belong to the identity mapping; and `localmem` does
not hand out `kernel_pd` or `kernel_pts`. -/
structure VirtmemInit (K : KernelImage) (L : Localmem ρ) (t : Machine ρ) : Prop where
  cr3 : t.cr3 = K.kernelPd * 4096
  linked : LinksKernel K t.mem K.kernelPd
  blank : ∀ i < 2 ^ 18, Entry.present.get (kernelFlatpt K t.mem i) = 0 →
    kernelFlatpt K t.mem i = 0
  free : ∀ f ∈ L.free t.localmem, ¬K.HoldsTable f ∧ f ≠ K.kernelPd

/-- A run: `as_cache` with the machine below, the address spaces that were made, and the kernel pages
that `kernel_alloc` handed out. -/
structure SpaceRun (ρ : Type) where
  k : MachineKmem ρ
  live : List ℕ
  pages : List ℕ

/-- One call. -/
inductive SpaceStep (K : KernelImage) (L : Localmem ρ) : SpaceRun ρ → SpaceRun ρ → Prop
  | kernelAlloc {r : SpaceRun ρ} {a : ℕ} {s' : Machine ρ} :
      (i686KernelAlloc K 1).run r.k.env = .ok (.ok a, s') →
      SpaceStep K L r ⟨{ r.k with env := s' }, r.live, a :: r.pages⟩
  | kernelMap {r : SpaceRun ρ} {a p : ℕ} {res : Except VirtmemError Unit} {s' : Machine ρ} :
      a ∈ r.pages → (i686KernelMapVirtToPhys K p a).run r.k.env = .ok (res, s') →
      SpaceStep K L r ⟨{ r.k with env := s' }, r.live, r.pages⟩
  | spaceAlloc {r : SpaceRun ρ} {as : ℕ} {k' : MachineKmem ρ} :
      (addressSpaceAlloc K).run r.k = .ok (.ok as, k') →
      SpaceStep K L r ⟨k', as :: r.live, r.pages⟩
  | setupKernelspace {r : SpaceRun ρ} {as : ℕ} {res : Except VirtmemError Unit}
      {s' : Machine ρ} : as ∈ r.live →
      (i686SetupKernelspace K (r.k.env.as as).pd).run r.k.env = .ok (res, s') →
      SpaceStep K L r ⟨{ r.k with env := s' }, r.live, r.pages⟩
  | page {r : SpaceRun ρ} {as v : ℕ} {call : UserPageCall} {res : Except VirtmemError Unit}
      {s' : Machine ρ} : as ∈ r.live → v < highstart →
      (userPageCall K L (r.k.env.as as).pd v call).run r.k.env = .ok (res, s') →
      SpaceStep K L r ⟨{ r.k with env := s' }, r.live, r.pages⟩

/-- `sizeof(struct address_space)`: five function pointers, the page directory and the list. -/
def sizeofAddressSpace : ℕ := 28

/-- The run begins with an empty `as_cache`. -/
def SpaceStart (K : KernelImage) (L : Localmem ρ) (r : SpaceRun ρ) : Prop :=
  ∃ t, VirtmemInit K L t ∧
    r = ⟨newCache K L sizeofAddressSpace (i686AddressSpaceCtor K L) t, [], []⟩

/-- A run that begins on the machine `m`. -/
def startSpaces (K : KernelImage) (L : Localmem ρ) (m : Machine ρ) : SpaceRun ρ :=
  ⟨newCache K L sizeofAddressSpace (i686AddressSpaceCtor K L) m, [], []⟩

/-- The states that a run gets to. -/
def SpaceReachable (K : KernelImage) (L : Localmem ρ) : SpaceRun ρ → Prop :=
  Reachable (SpaceStart K L) (SpaceStep K L)

/-- **The invariant.** -/
structure SpaceInv (K : KernelImage) (L : Localmem ρ) (pg : List ℕ) (r : SpaceRun ρ) : Prop where
  ready : KmemReady K L sizeofAddressSpace pg r.live r.k
  ctor : r.k.cache.ctor = some (i686AddressSpaceCtor K L)
  roles : Roles K L (directories r.k.env r.live) r.k.env
  slabs : ∀ i g, window i ∈ pg → Shows K r.k.env.mem i g → g ∉ directories r.k.env r.live
  distinct : ∀ a ∈ r.live, ∀ b ∈ r.live,
    directoryOf r.k.env a = directoryOf r.k.env b → a = b
  pages : ∀ a ∈ r.pages, a ∉ pg ∧ ∃ i < 2 ^ 18, a = window i ∧
    Entry.present.get (kernelFlatpt K r.k.env.mem i) = 1

section Runs

variable {size f g : ℕ} {pg out : List ℕ} {r r' : SpaceRun ρ} {k k' : MachineKmem ρ}
  {s t : Machine ρ} {live : List ℕ} {as a p : ℕ}

lemma directoryOf_congr (h : s.as = t.as) (as : ℕ) : directoryOf s as = directoryOf t as := by
  unfold directoryOf
  rw [h]

lemma directories_congr (h : s.as = t.as) : directories s live = directories t live := by
  unfold directories
  simp only [directoryOf_congr h]

lemma VirtmemInit.roles (h : VirtmemInit K L t) : Roles K L ∅ t := by
  refine ⟨?_, h.linked, fun i hi h0 => ?_, fun f hf => ⟨(h.free f hf).1, (h.free f hf).2, id⟩, ?_,
    ?_, ?_, ?_, ?_⟩
  · rw [h.cr3]
    exact Nat.mul_div_cancel _ (by norm_num)
  · rw [h.blank i hi h0, Field.get_zero]
  all_goals exact fun d hd => hd.elim

lemma SpaceStart.inv (h : SpaceStart K L r) : SpaceInv K L [] r := by
  rcases h with ⟨t, hinit, rfl⟩
  have hroles := hinit.roles
  have hempty : directories t [] = ∅ := by
    ext d
    simp [directories]
  refine ⟨newCache_ready _ hroles.running hroles.canWipe, rfl, ?_, fun i g hi => ?_,
    fun a ha => ?_, fun a ha => ?_⟩
  · show Roles K L (directories t []) t
    rwa [hempty]
  · exact absurd hi List.not_mem_nil
  · exact absurd ha List.not_mem_nil
  · exact absurd ha List.not_mem_nil

lemma SlabPage.keeps {v : ℕ} (h : SlabPage K L t v) (hk : Keeps K L t s) : SlabPage K L s v := by
  rcases h with ⟨i, f, rfl, hshows, hplain, hf⟩
  refine ⟨i, f, rfl, hshows.keeps hk, ?_, fun hc => hf (hk.free hc)⟩
  rw [hk.cr3]
  exact hplain

/-- **The step lemma** for calls that leave the cache alone. -/
lemma SpaceInv.setEnv (h : SpaceInv K L pg r)
    (hstep : Step K L (directories r.k.env r.live) r.k.env s) :
    SpaceInv K L pg ⟨{ r.k with env := s }, r.live, r.pages⟩ := by
  have hdirs : directories s r.live = directories r.k.env r.live := directories_congr hstep.as
  refine ⟨⟨h.ready.inv.env s, hstep.roles.running, hstep.roles.canWipe,
    fun v hv => (h.ready.pages v hv).keeps hstep.keeps⟩, h.ctor, ?_, fun i g hi hshows => ?_,
    fun a ha b hb heq => ?_, fun a ha => ?_⟩
  · show Roles K L (directories s r.live) s
    rw [hdirs]
    exact hstep.roles
  · show g ∉ directories s r.live
    rw [hdirs]
    rcases h.ready.pages _ hi with ⟨j, f, hij, hshows', -⟩
    obtain rfl : i = j := window_inj hij
    obtain rfl : g = f := hshows.frame.symm.trans (hshows'.keeps hstep.keeps).frame
    exact h.slabs i g hi hshows'
  · rw [directoryOf_congr hstep.as, directoryOf_congr hstep.as] at heq
    exact h.distinct a ha b hb heq
  · rcases h.pages a ha with ⟨hnot, i, hi, rfl, h1⟩
    refine ⟨hnot, i, hi, rfl, ?_⟩
    show Entry.present.get (kernelFlatpt K s.mem i) = 1
    rw [hstep.keeps.pages i hi h1, h1]

/-! ## Steps -/

/-- **A page from `kernel_alloc`** is none of the slabs. -/
lemma SpaceInv.kernelAlloc (h : SpaceInv K L pg r)
    (hrun : (i686KernelAlloc K 1).run r.k.env = .ok (.ok a, s)) :
    SpaceInv K L pg ⟨{ r.k with env := s }, r.live, a :: r.pages⟩ := by
  rcases Prog.wp_run h.roles.kernelAlloc_wp hrun with ⟨hstep, hpage⟩
  rcases hpage a rfl with ⟨i, hi, rfl, h0, h1⟩
  have hnext := h.setEnv hstep
  refine ⟨hnext.ready, hnext.ctor, hnext.roles, hnext.slabs, hnext.distinct,
    List.forall_mem_cons.mpr ⟨⟨fun hpg => ?_, i, hi, rfl, h1⟩, hnext.pages⟩⟩
  rcases h.ready.pages _ hpg with ⟨j, f, hij, hshows, -⟩
  obtain rfl : i = j := window_inj hij
  rw [hshows.present] at h0
  exact absurd h0 one_ne_zero

/-- **Mapping a page from `kernel_alloc`** changes that page only. -/
lemma SpaceInv.kernelMap (h : SpaceInv K L pg r) {res : Except VirtmemError Unit}
    (ha : a ∈ r.pages) (hrun : (i686KernelMapVirtToPhys K p a).run r.k.env = .ok (res, s)) :
    SpaceInv K L pg ⟨{ r.k with env := s }, r.live, r.pages⟩ := by
  rcases h.pages a ha with ⟨hnot, i, hi, rfl, h1⟩
  rw [i686KernelMapVirtToPhys_run hi h1] at hrun
  obtain rfl := (Prod.mk.inj (Except.ok.inj hrun)).2
  have hroles := h.roles.kernelMap hi h1 p
  -- the slabs are other kernel pages
  have hother : ∀ j, window j ∈ pg → kernelFlatpt K
      (setKernelFlatpt K r.k.env.mem i (windowPte (kernelFlatpt K r.k.env.mem i) p)) j
        = kernelFlatpt K r.k.env.mem j := by
    intro j hj
    refine setKernelFlatpt_of_ne ?_
    rintro rfl
    exact hnot hj
  refine ⟨⟨h.ready.inv.env _, hroles.running, hroles.canWipe, fun v hv => ?_⟩, h.ctor, hroles,
    fun j g hj hshows => h.slabs j g hj (hshows.congr (hother j hj).symm), h.distinct,
    fun b hb => ?_⟩
  · rcases h.ready.pages v hv with ⟨j, f, rfl, hshows, hplain, hf⟩
    exact ⟨j, f, rfl, hshows.congr (hother j hv), hplain, hf⟩
  · rcases h.pages b hb with ⟨hnot', j, hj, rfl, hj1⟩
    refine ⟨hnot', j, hj, rfl, ?_⟩
    by_cases hij : j = i
    · rw [hij]
      simp only [setKernelFlatpt_self, present_windowPte]
    · simp only [setKernelFlatpt_of_ne hij, hj1]

/-- The frame of a slab is spare. -/
lemma SpaceInv.slabSpare (h : SpaceInv K L pg r) (hg : FrameFrom K L pg r.k g) :
    Spare K (directories r.k.env r.live) g := by
  rcases hg with hfree | ⟨i, hi, hshows⟩
  · exact h.roles.free g hfree
  · rcases h.ready.pages _ hi with ⟨j, f, hij, hshows', hplain, -⟩
    obtain rfl : i = j := window_inj hij
    obtain rfl : g = f := hshows.frame.symm.trans hshows'.frame
    refine ⟨hplain.notTable, fun hc => hplain.notRunning ?_, h.slabs i g hi hshows⟩
    rw [h.roles.cr3, hc]

/-- **Taking an object** for an address space. -/
lemma SpaceInv.taken (h : SpaceInv K L pg r) {W : Finset ℕ} {l : ρ}
    (htaken : ObjectTaken K L sizeofAddressSpace pg r.k as W l g t)
    (hframes : SlabFrames K L pg r.k t) : Step K L (directories r.k.env r.live) r.k.env t := by
  rcases htaken.object with ⟨i, hi, hobj⟩
  have hspare := h.slabSpare (hframes i g hi hobj.1)
  rcases htaken.opens with ⟨mem, hmem, hopens⟩
  have hne : ∀ f, ¬Spare K (directories r.k.env r.live) f → f ≠ g := by
    rintro f hf rfl
    exact hf hspare
  have hroles : Roles K L (directories r.k.env r.live) { r.k.env with mem := mem } :=
    h.roles.setMem fun f hf => hmem f (hne f hf)
  have hkeeps : Keeps K L r.k.env { r.k.env with mem := mem, localmem := l } :=
    Keeps.of_mem htaken.free_subset fun f hf => hmem f (hne f fun hs => hs.notTable hf)
  exact ⟨(hroles.setLocalmem htaken.free_subset).opens hopens, hkeeps.trans hopens.keeps,
    hopens.as⟩

/-- An address space that is made keeps what every operation keeps. -/
lemma SpaceMade.keeps (h : SpaceMade K L t as f s) (hf : ¬K.HoldsTable f) : Keeps K L t s := by
  rcases h.alloc with ⟨l, W, halloc, -, hopens⟩
  have hsub := L.pageAlloc_free (l := t.localmem)
  rw [halloc] at hsub
  refine Keeps.trans (s := { t with
      mem := setPdes K (zeroFrame t.mem f) f 768 256
      localmem := l
      as := Function.update t.as as ⟨f * 4096, []⟩ }) ⟨rfl, hsub, fun i hi _ => ?_⟩ hopens.keeps
  simp only [kernelFlatpt_setPdes hi hf, kernelFlatpt_zeroFrame hi hf]

/-- The new page directory. -/
lemma SpaceMade.directoryOf_self (h : SpaceMade K L t as f s) (hf : f < 2 ^ 20) :
    directoryOf s as = f := by
  rcases h.alloc with ⟨l, W, -, -, hopens⟩
  rw [directoryOf, hopens.as]
  simp only [Function.update_self]
  exact physAddr_frame hf

/-- The page directories of before. -/
lemma SpaceMade.directoryOf_mem (h : SpaceMade K L t as f s) (has : as ∉ live) {b : ℕ}
    (hb : b ∈ live) : directoryOf s b = directoryOf t b := by
  have hne : b ≠ as := by
    rintro rfl
    exact has hb
  rcases h.alloc with ⟨l, W, -, -, hopens⟩
  rw [directoryOf, hopens.as]
  simp only [Function.update_of_ne hne]
  rfl

/-- The page directories with a new one. -/
lemma SpaceMade.directories (h : SpaceMade K L t as f s) (has : as ∉ live) (hf : f < 2 ^ 20) :
    directories s (as :: live) = insert f (Akaris.directories t live) := by
  have hnew := h.directoryOf_self hf
  have hold : ∀ b ∈ live, directoryOf s b = directoryOf t b := fun _ => h.directoryOf_mem has
  ext d
  constructor
  · rintro ⟨b, hb, rfl⟩
    rcases List.mem_cons.mp hb with rfl | hb
    · exact Or.inl hnew
    · exact Or.inr ⟨b, hb, (hold b hb).symm⟩
  · rintro (rfl | ⟨b, hb, rfl⟩)
    · exact ⟨as, List.mem_cons_self, hnew⟩
    · exact ⟨b, List.mem_cons_of_mem _ hb, hold b hb⟩

/-- Allocating an address space keeps the accounting of the cache. -/
lemma addressSpaceAlloc_stock (h : KmemReady K L size pg out k) (hfit : Fits 4096 size) :
    Prog.wp (addressSpaceAlloc K)
      (fun r k' => ∀ as, r = .ok as →
        as ∉ out ∧ SlabInv False (i686Cpu K L) size (newSlab k ++ pg) (as :: out) k')
      (fun _ => True) k := by
  rw [addressSpaceAlloc, Prog.wp_bind]
  refine Prog.wp_mono (commonKmemCacheAlloc_wp hfit h.inv h.freshSupply) ?_ fun _ _ => trivial
  intro r k₁ hr
  cases r with
  | none => exact (Prog.wp_fault _).mpr trivial
  | some obj =>
      rcases hr with ⟨hout, hinv⟩
      refine (Prog.wp_bind _ _).mpr (Prog.wp_mono (callEnv_wp _) ?_ fun _ _ => trivial)
      rintro _ _ ⟨e₁, rfl⟩
      refine (Prog.wp_bind _ _).mpr (Prog.wp_mono (callEnv_wp _) ?_ fun _ _ => trivial)
      rintro _ _ ⟨e₂, rfl⟩
      refine (Prog.wp_bind _ _).mpr (Prog.wp_mono (callEnv_wp _) ?_ fun _ _ => trivial)
      rintro _ _ ⟨e₃, rfl⟩
      refine (Prog.wp_pure _).mpr fun as has => ?_
      obtain rfl := Except.ok.inj has
      exact ⟨hout, ((hinv.env e₁).env e₂).env e₃⟩

/-- An address space that is made leaves the kernel pages that are present alone. -/
lemma SpaceInv.spaceAlloc_keeps (h : SpaceInv K L pg r)
    (hrun : (addressSpaceAlloc K).run r.k = .ok (.ok as, k')) : Keeps K L r.k.env k'.env := by
  have hfit : Fits 4096 sizeofAddressSpace := ⟨by decide, by decide, by decide⟩
  rcases Prog.wp_run (addressSpaceAlloc_wp h.ready hfit h.ctor) hrun with
    ⟨-, as', W, l, g, t, f, -, -, htaken, hmade, hframes, -⟩
  have htake := h.taken htaken hframes
  have hspare := htake.roles.free f hmade.free
  exact htake.keeps.trans (hmade.keeps hspare.notTable)

/-- **A new address space.**  Its slab may be new as well, and its page directory is. -/
lemma SpaceInv.spaceAlloc (h : SpaceInv K L pg r)
    (hrun : (addressSpaceAlloc K).run r.k = .ok (.ok as, k')) :
    SpaceInv K L (newSlab r.k ++ pg) ⟨k', as :: r.live, r.pages⟩ := by
  have hfit : Fits 4096 sizeofAddressSpace := ⟨by decide, by decide, by decide⟩
  rcases Prog.wp_run (addressSpaceAlloc_stock h.ready hfit) hrun as rfl with ⟨hlive, hinv⟩
  rcases Prog.wp_run (addressSpaceAlloc_wp h.ready hfit h.ctor) hrun with
    ⟨-, as', W, l, g, t, f, has, -, htaken, hmade, hframes, hctor⟩
  obtain rfl := Except.ok.inj has
  have htake := h.taken htaken hframes
  have hspare := htake.roles.free f hmade.free
  have hkeeps := hmade.keeps hspare.notTable
  have hrange := L.free_range _ f hmade.free
  have hdirs : directories k'.env (as :: r.live)
      = insert f (directories r.k.env r.live) := by
    rw [hmade.directories hlive hrange.2, directories_congr htake.as]
  have hroles : Roles K L (directories k'.env (as :: r.live)) k'.env := by
    rcases hmade.alloc with ⟨l', W', halloc, -, hopens⟩
    rw [hdirs]
    exact (htake.roles.insert halloc).opens hopens
  refine ⟨⟨hinv, hroles.running, hroles.canWipe, fun v hv => (htaken.pages v hv).keeps hkeeps⟩,
    hctor.trans h.ctor, hroles, fun i g' hi hshows => ?_, fun a ha b hb heq => ?_,
    fun a ha => ?_⟩
  · show g' ∉ directories k'.env (as :: r.live)
    rw [hdirs]
    rcases htaken.pages _ hi with ⟨j, f', hij, hshows', -, hf'⟩
    obtain rfl : i = j := window_inj hij
    obtain rfl : g' = f' := hshows.frame.symm.trans (hshows'.keeps hkeeps).frame
    rintro (rfl | hold)
    · exact hf' hmade.free
    · exact (h.slabSpare (hframes i g' hi hshows')).notDirectory hold
  · have hself := hmade.directoryOf_self hrange.2
    have hold : ∀ b ∈ r.live, directoryOf k'.env b = directoryOf r.k.env b := fun b hb =>
      (hmade.directoryOf_mem hlive hb).trans (directoryOf_congr htake.as b)
    -- the new page directory is none of the others
    have hnew : ∀ b ∈ r.live, directoryOf k'.env b ≠ f := by
      intro b hb hc
      rw [hold b hb] at hc
      exact hspare.notDirectory ⟨b, hb, hc⟩
    rcases List.mem_cons.mp ha with rfl | ha'
    · rcases List.mem_cons.mp hb with rfl | hb'
      · rfl
      · exact absurd (heq.symm.trans hself) (hnew b hb')
    · rcases List.mem_cons.mp hb with rfl | hb'
      · exact absurd (heq.trans hself) (hnew a ha')
      · simp only [hold a ha', hold b hb'] at heq
        exact h.distinct a ha' b hb' heq
  · rcases h.pages a ha with ⟨hnot, i, hi, rfl, h1⟩
    have hkept := (h.spaceAlloc_keeps hrun).pages i hi h1
    refine ⟨fun hmem => ?_, i, hi, rfl, ?_⟩
    · rcases List.mem_append.mp hmem with hnew | hold
      · rcases newSlab_window h.ready.inv.cpu hnew with ⟨j, -, hij, h0⟩
        obtain rfl : i = j := window_inj hij
        rw [h1] at h0
        exact absurd h0 one_ne_zero
      · exact hnot hold
    · show Entry.present.get (kernelFlatpt K k'.env.mem i) = 1
      rw [hkept, h1]

/-- **Every step keeps the invariant.** -/
theorem SpaceInv.step (h : SpaceInv K L pg r) (hs : SpaceStep K L r r') :
    ∃ pg', SpaceInv K L pg' r' := by
  cases hs with
  | kernelAlloc hrun => exact ⟨pg, h.kernelAlloc hrun⟩
  | kernelMap ha hrun => exact ⟨pg, h.kernelMap ha hrun⟩
  | spaceAlloc hrun => exact ⟨_, h.spaceAlloc hrun⟩
  | setupKernelspace has hrun =>
      have hstep := Prog.wp_run (h.roles.setupKernelspace_wp ⟨_, has, rfl⟩) hrun
      exact ⟨pg, h.setEnv hstep⟩
  | page has hv hrun =>
      have hstep := Prog.wp_run (h.roles.userPageCall_wp ⟨_, has, rfl⟩ hv _) hrun
      exact ⟨pg, h.setEnv hstep⟩

/-- **The invariant holds in every run.** -/
theorem SpaceReachable.inv (hr : SpaceReachable K L r) : ∃ pg, SpaceInv K L pg r := by
  refine Reachable.invariant (I := fun r => ∃ pg, SpaceInv K L pg r) (fun _ h => ⟨_, h.inv⟩) ?_ hr
  rintro _ _ ⟨pg, h⟩ hs
  exact h.step hs

/-- **A kernel page that is present and was not handed out** is left alone by every step, and is not
handed out. -/
lemma SpaceInv.fixedPage (h : SpaceInv K L pg r) (hs : SpaceStep K L r r') {i : ℕ} (hi : i < 2 ^ 18)
    (h1 : Entry.present.get (kernelFlatpt K r.k.env.mem i) = 1) (hout : window i ∉ r.pages) :
    kernelFlatpt K r'.k.env.mem i = kernelFlatpt K r.k.env.mem i ∧ window i ∉ r'.pages := by
  cases hs with
  | kernelAlloc hrun =>
      rcases Prog.wp_run h.roles.kernelAlloc_wp hrun with ⟨hstep, hpage⟩
      rcases hpage _ rfl with ⟨j, hj, rfl, h0, -⟩
      refine ⟨hstep.keeps.pages i hi h1, fun hmem => ?_⟩
      rcases List.mem_cons.mp hmem with heq | hold
      · obtain rfl : i = j := window_inj heq
        rw [h1] at h0
        exact absurd h0 one_ne_zero
      · exact hout hold
  | @kernelMap a p res s' ha hrun =>
      rcases h.pages a ha with ⟨-, j, hj, rfl, hj1⟩
      rw [i686KernelMapVirtToPhys_run hj hj1] at hrun
      obtain rfl := (Prod.mk.inj (Except.ok.inj hrun)).2
      refine ⟨setKernelFlatpt_of_ne ?_, hout⟩
      rintro rfl
      exact hout ha
  | spaceAlloc hrun => exact ⟨(h.spaceAlloc_keeps hrun).pages i hi h1, hout⟩
  | setupKernelspace has hrun =>
      have hstep := Prog.wp_run (h.roles.setupKernelspace_wp ⟨_, has, rfl⟩) hrun
      exact ⟨hstep.keeps.pages i hi h1, hout⟩
  | page has hv hrun =>
      have hstep := Prog.wp_run (h.roles.userPageCall_wp ⟨_, has, rfl⟩ hv _) hrun
      exact ⟨hstep.keeps.pages i hi h1, hout⟩

/-- **The kernel half is the same in every address space at all times**: the page directory of every
address space agrees with `kernel_pd` on the entries of the kernel half, and every kernel address
has the translation that `kernel_pd` gives it. -/
theorem kernel_half_shared (hr : SpaceReachable K L r) (has : as ∈ r.live) :
    (∀ w, 768 ≤ w → w < 1024 →
      r.k.env.mem (directoryOf r.k.env as) w = r.k.env.mem K.kernelPd w) ∧
    ∀ v, highstart ≤ v → v < 2 ^ 32 → mmuTranslate r.k.env.mem (directoryOf r.k.env as) v
      = mmuTranslate r.k.env.mem K.kernelPd v := by
  rcases hr.inv with ⟨pg, h⟩
  have hlinked := h.roles.linked _ ⟨as, has, rfl⟩
  have hsame : ∀ w, 768 ≤ w → w < 1024 →
      r.k.env.mem (directoryOf r.k.env as) w = r.k.env.mem K.kernelPd w := by
    intro w hlo hhi
    obtain ⟨m, rfl⟩ := Nat.exists_eq_add_of_le hlo
    rw [hlinked m (by omega), h.roles.kernel m (by omega)]
  refine ⟨hsame, fun v hv hv' => ?_⟩
  have hw := hsame (v / 2 ^ 22) (by unfold highstart at hv; omega) (by omega)
  simp only [mmuTranslate, hw]

lemma smallMachineWith_init : VirtmemInit smallImage countingLocalmem (smallMachineWith 300) := by
  refine ⟨rfl, smallMachine_linksKernel, fun i _ _ => kernelFlatpt_smallMachine i, ?_⟩
  rintro f ⟨-, hle, -⟩
  have hle' : 300 ≤ f := hle
  refine ⟨?_, ?_⟩
  · rintro ⟨-, hlt⟩
    have hlt' : f < 2 + 256 := hlt
    omega
  · show f ≠ 1
    omega

/-- The first address space can be made with four kernel pages and two frames. -/
lemma VirtmemInit.firstSpace {l : ρ} {p p' : ℕ} (h : VirtmemInit K L t)
    (hwindows : 4 ≤ freeWindows K t.mem) (halloc : L.pageAlloc t.localmem = (.ok p, l))
    (halloc' : (L.pageAlloc l).1 = .ok p') :
    ∃ as k, (addressSpaceAlloc K).run (startSpaces K L t).k = .ok (.ok as, k) := by
  have hready : KmemReady K L sizeofAddressSpace [] [] (startSpaces K L t).k :=
    newCache_ready _ h.roles.running h.roles.canWipe
  have havail : SpaceAvailable K L (startSpaces K L t).k := by
    have hl : localmemForPd L (startSpaces K L t).k = l := by
      show (if NeedsSlab _ then (L.pageAlloc t.localmem).2 else t.localmem) = l
      rw [if_pos ⟨rfl, rfl⟩, halloc]
    refine ⟨fun _ => ⟨?_, p, ?_⟩, hwindows, p', ?_⟩
    · show freeWindows K t.mem ≠ 0
      omega
    · show (L.pageAlloc t.localmem).1 = .ok p
      rw [halloc]
    · rw [hl]
      exact halloc'
  rcases Prog.wp_returns (Prog.wp_mono (addressSpaceAlloc_wp hready
    ⟨by decide, by decide, by decide⟩ rfl) (fun _ _ hr => hr) fun _ he => he havail) with
    ⟨r, k, hrun, -, as, W, l, g, t, f, rfl, -⟩
  exact ⟨as, k, hrun⟩

/-- The small machine before the first address space. -/
def smallSpaces : SpaceRun ℕ where
  k := newCache smallImage countingLocalmem sizeofAddressSpace
    (i686AddressSpaceCtor smallImage countingLocalmem) (smallMachineWith 300)
  live := []
  pages := []

lemma smallSpaces_reachable : SpaceReachable smallImage countingLocalmem smallSpaces :=
  .base ⟨_, smallMachineWith_init, rfl⟩

lemma smallSpaces_wp : Prog.wp (addressSpaceAlloc smallImage)
    (fun r k' => ∃ as W l g t f, r = .ok as ∧
      ObjectTaken smallImage countingLocalmem sizeofAddressSpace [] smallSpaces.k as W l g t ∧
      SpaceMade smallImage countingLocalmem t as f k'.env)
    (fun _ => False) smallSpaces.k := by
  have hready : KmemReady smallImage countingLocalmem sizeofAddressSpace [] [] smallSpaces.k :=
    newCache_ready _ (smallMachineWith_running 300) smallMachineWith_canWipe
  refine Prog.wp_mono (addressSpaceAlloc_wp hready ⟨by decide, by decide, by decide⟩ rfl) ?_
    fun _ he => he spaceAvailable_smallMachineWith
  rintro r k' ⟨-, as, W, l, g, t, f, hr, -, htaken, hmade, -⟩
  exact ⟨as, W, l, g, t, f, hr, htaken, hmade⟩

lemma smallSpaces_returns :
    ∃ as k, (addressSpaceAlloc smallImage).run smallSpaces.k = .ok (.ok as, k) := by
  rcases Prog.wp_returns smallSpaces_wp with ⟨_, k, hrun, as, W, l, g, t, f, rfl, -⟩
  exact ⟨as, k, hrun⟩

/-- An address space takes three windows. -/
lemma SpaceMade.freeWindows (h : SpaceMade K L t as f s) (hf : ¬K.HoldsTable f) :
    freeWindows K s.mem + 3 = freeWindows K t.mem := by
  rcases h.alloc with ⟨l, W, -, hcard, hopens⟩
  have hopened := hopens.mem.freeWindows
  rwa [hcard, freeWindows_setPdes hf, freeWindows_zeroFrame hf] at hopened

/-- Two frames are taken, and four windows opened. -/
lemma smallSpaces_alloc {k : MachineKmem ℕ} {as : ℕ}
    (hrun : (addressSpaceAlloc smallImage).run smallSpaces.k = .ok (.ok as, k)) :
    freeWindows smallImage k.env.mem + 4 = 2 ^ 18 ∧ k.env.localmem = 302 := by
  rcases Prog.wp_run smallSpaces_wp hrun with ⟨_, W, l, g, t, f, -, htaken, hmade⟩
  have hplain := htaken.canWipe smallMachineWith_canWipe f hmade.free
  have htaken_windows := htaken.freeWindows
  have hmade_windows := hmade.freeWindows hplain.notTable
  have hbefore : freeWindows smallImage smallSpaces.k.env.mem = 2 ^ 18 := freeWindows_smallMachine
  rcases htaken.supply with ⟨hneeds, -⟩ | ⟨-, hcard, f', -, halloc⟩
  · exact absurd ⟨rfl, rfl⟩ hneeds
  · have hslab : countingLocalmem.pageAlloc 300 = (.ok (f' * 4096), l) := halloc
    obtain rfl : 301 = l := (Prod.mk.inj hslab).2
    rcases hmade.alloc with ⟨l', W', halloc', -, hopens⟩
    rw [htaken.localmem] at halloc'
    obtain rfl : 302 = l' := (Prod.mk.inj halloc').2
    exact ⟨by omega, hopens.localmem⟩

end Runs

/-- A run that makes an address space. -/
theorem kernel_half_shared_one : ∃ as k,
    (addressSpaceAlloc smallImage).run smallSpaces.k = .ok (.ok as, k) ∧
    ∀ v, highstart ≤ v → v < 2 ^ 32 → mmuTranslate k.env.mem (directoryOf k.env as) v
      = mmuTranslate k.env.mem smallImage.kernelPd v := by
  rcases smallSpaces_returns with ⟨as, k, hrun⟩
  have hr := smallSpaces_reachable.tail (.spaceAlloc hrun)
  exact ⟨as, k, hrun, (kernel_half_shared hr (List.mem_singleton_self as)).2⟩

end Akaris
