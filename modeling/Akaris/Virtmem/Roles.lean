import Akaris.Virtmem.Failures
import Akaris.Virtmem.Setup

/-!
# What the frames are for

A machine with page directories in the frames `D`, besides `kernel_pd`.  `Roles` is the invariant of
such a machine: the running page directory is `kernel_pd`, all page directories are linked to the
kernel half, their user halves point to page tables of their own, and what `localmem` may still hand
out is none of these.

Two places hold the number of a frame that nobody gave them: an entry of a page directory that is
not present, and a kernel page that was never mapped.  The walk uses both, the first when a page
table cannot be made and the second for the first page of an address space.  In both it is frame 0,
which is never in use.

* **`Roles.pdeStep`**, **`Roles.changeEntry`** — a walk keeps the invariant, and what is then stored
  goes to a frame that is neither a page directory nor a kernel page table.
* **`Roles.setPdes`**, **`Roles.insert`** — so do linking a page directory again and adding one.
-/

namespace Akaris

variable {ρ : Type} {K : KernelImage} {L : Localmem ρ}

/-- A frame that is neither a page directory nor a kernel page table. -/
structure Spare (K : KernelImage) (D : Set ℕ) (f : ℕ) : Prop where
  notTable : ¬K.HoldsTable f
  notKernel : f ≠ K.kernelPd
  notDirectory : f ∉ D

/-- A frame that is in use as a page table. -/
structure UserTable (K : KernelImage) (L : Localmem ρ) (D : Set ℕ) (l : ρ) (f : ℕ) : Prop where
  spare : Spare K D f
  ne_zero : f ≠ 0
  taken : f ∉ L.free l

/-- **The invariant.** -/
structure Roles (K : KernelImage) (L : Localmem ρ) (D : Set ℕ) (s : Machine ρ) : Prop where
  cr3 : s.cr3 / 4096 = K.kernelPd
  kernel : LinksKernel K s.mem K.kernelPd
  blank : ∀ i < 2 ^ 18, Entry.present.get (kernelFlatpt K s.mem i) = 0 →
    Entry.physAddr.get (kernelFlatpt K s.mem i) = 0
  free : ∀ f ∈ L.free s.localmem, Spare K D f
  directory : ∀ d ∈ D, d ≠ 0 ∧ d ≠ K.kernelPd ∧ ¬K.HoldsTable d
  linked : ∀ d ∈ D, LinksKernel K s.mem d
  absent : ∀ d ∈ D, ∀ w < 768, Entry.present.get (s.mem d w) = 0 →
    Entry.physAddr.get (s.mem d w) = 0
  present : ∀ d ∈ D, ∀ w < 768, Entry.present.get (s.mem d w) = 1 →
    ∃ f, s.mem d w = userPde f ∧ f < 2 ^ 20 ∧ UserTable K L D s.localmem f
  apart : ∀ d ∈ D, ∀ d' ∈ D, ∀ w < 768, ∀ w' < 768, Entry.present.get (s.mem d w) = 1 →
    Entry.present.get (s.mem d' w') = 1 →
    Entry.physAddr.get (s.mem d w) = Entry.physAddr.get (s.mem d' w') → d = d' ∧ w = w'

/-- What every operation leaves alone: the running page directory, the frames that were handed out,
and the kernel pages that are present. -/
structure Keeps (K : KernelImage) (L : Localmem ρ) (t s : Machine ρ) : Prop where
  cr3 : s.cr3 = t.cr3
  free : L.free s.localmem ⊆ L.free t.localmem
  pages : ∀ i < 2 ^ 18, Entry.present.get (kernelFlatpt K t.mem i) = 1 →
    kernelFlatpt K s.mem i = kernelFlatpt K t.mem i

section Keeps

variable {s t u : Machine ρ} {W : Finset ℕ} {f i : ℕ}

lemma Keeps.refl (s : Machine ρ) : Keeps K L s s := ⟨rfl, Set.Subset.rfl, fun _ _ _ => rfl⟩

lemma Keeps.trans (h : Keeps K L t s) (h' : Keeps K L s u) : Keeps K L t u := by
  refine ⟨h'.cr3.trans h.cr3, h'.free.trans h.free, fun i hi h1 => ?_⟩
  have hsame := h.pages i hi h1
  rw [h'.pages i hi (by rw [hsame, h1]), hsame]

lemma Opens.keeps (h : Opens K W t s) : Keeps K L t s := by
  refine ⟨h.cr3, ?_, fun i hi h1 => h.mem.kept hi h1⟩
  rw [h.localmem]

/-- Stores outside of the kernel page tables. -/
lemma Keeps.of_mem {mem : PhysMem} {l : ρ} (hl : L.free l ⊆ L.free t.localmem)
    (hmem : ∀ f, K.HoldsTable f → ∀ w, mem f w = t.mem f w) :
    Keeps K L t { t with mem := mem, localmem := l } :=
  ⟨rfl, hl, fun _ hi _ => hmem _ (holdsTable_of_lt hi) _⟩

lemma Shows.keeps (h : Shows K t.mem i f) (hk : Keeps K L t s) : Shows K s.mem i f :=
  h.congr (hk.pages i h.lt h.present)

end Keeps

section Roles

variable {D : Set ℕ} {s t t' : Machine ρ} {W : Finset ℕ} {d f g k n v w : ℕ}

lemma kernelPd_notTable : ¬K.HoldsTable K.kernelPd := by
  rintro ⟨hlo, hhi⟩
  have hapart := K.apart
  omega

lemma Roles.running (h : Roles K L D s) : Running K s := by
  refine ⟨?_, ?_⟩
  · rw [h.cr3]
    exact h.kernel
  · rw [h.cr3]
    exact kernelPd_notTable

lemma Roles.canWipe (h : Roles K L D s) : CanWipe K L s := by
  intro f hf
  have hspare := h.free f hf
  refine ⟨hspare.notTable, ?_⟩
  rw [h.cr3]
  exact hspare.notKernel

/-- Frame 0 is spare. -/
lemma Roles.spare_zero (h : Roles K L D s) : Spare K D 0 := by
  have htables := K.kernelPts_range.1
  have hkernel := K.kernelPd_range.1
  refine ⟨fun hc => ?_, hkernel.ne, fun hc => (h.directory 0 hc).1 rfl⟩
  have hlo := hc.1
  omega

lemma Roles.notTable (h : Roles K L D s) (hd : d ∈ D) : ¬K.HoldsTable d := (h.directory d hd).2.2

/-- **The frame rule**: what the invariant looks at are the page directories, the kernel pages that
are not present, and what is left of `localmem`. -/
lemma Roles.transfer (h : Roles K L D t) (hcr3 : s.cr3 = t.cr3)
    (hkernel : ∀ w, s.mem K.kernelPd w = t.mem K.kernelPd w)
    (hdir : ∀ d ∈ D, ∀ w, s.mem d w = t.mem d w)
    (hflat : ∀ i < 2 ^ 18, Entry.present.get (kernelFlatpt K s.mem i) = 0 →
      kernelFlatpt K s.mem i = kernelFlatpt K t.mem i)
    (hfree : L.free s.localmem ⊆ L.free t.localmem) : Roles K L D s := by
  refine ⟨by rw [hcr3, h.cr3], h.kernel.congr hkernel, fun i hi h0 => ?_,
    fun f hf => h.free f (hfree hf), h.directory, fun d hd => (h.linked d hd).congr (hdir d hd),
    fun d hd w hw h0 => ?_, fun d hd w hw h1 => ?_,
    fun d hd d' hd' w hw w' hw' h1 h1' heq => ?_⟩
  · have hsame := hflat i hi h0
    rw [hsame] at h0 ⊢
    exact h.blank i hi h0
  · rw [hdir d hd] at h0 ⊢
    exact h.absent d hd w hw h0
  · rw [hdir d hd] at h1 ⊢
    rcases h.present d hd w hw h1 with ⟨f, hpde, hf, hspare, hne, htaken⟩
    exact ⟨f, hpde, hf, hspare, hne, fun hc => htaken (hfree hc)⟩
  · rw [hdir d hd, hdir d' hd'] at heq
    rw [hdir d hd] at h1
    rw [hdir d' hd'] at h1'
    exact h.apart d hd d' hd' w hw w' hw' h1 h1' heq

/-- Stores to spare frames keep the invariant. -/
lemma Roles.setMem {mem : PhysMem} (h : Roles K L D s)
    (hmem : ∀ f, ¬Spare K D f → ∀ w, mem f w = s.mem f w) : Roles K L D { s with mem := mem } :=
  h.transfer rfl (hmem _ fun hs => hs.notKernel rfl)
    (fun d hd => hmem d fun hs => hs.notDirectory hd)
    (fun _ hi _ => hmem _ (fun hs => hs.notTable (holdsTable_of_lt hi)) _) Set.Subset.rfl

/-- Opening windows keeps the invariant. -/
lemma Roles.opens (h : Roles K L D t) (hopens : Opens K W t s) : Roles K L D s := by
  refine h.transfer hopens.cr3 (fun w => hopens.outside kernelPd_notTable)
    (fun d hd w => hopens.outside (h.notTable hd))
    (fun i hi h0 => hopens.mem.other i hi (hopens.mem.notMem h0)) ?_
  rw [hopens.localmem]

/-- Taking a frame keeps the invariant. -/
lemma Roles.setLocalmem {l : ρ} (h : Roles K L D s) (hl : L.free l ⊆ L.free s.localmem) :
    Roles K L D { s with localmem := l } :=
  h.transfer rfl (fun _ => rfl) (fun _ _ _ => rfl) (fun _ _ _ => rfl) hl

/-! ## Walks -/

/-- A frame that was handed out is spare, and not handed out again. -/
lemma Roles.pageAlloc {l : ρ} (h : Roles K L D s)
    (halloc : L.pageAlloc s.localmem = (.ok (f * 4096), l)) :
    Spare K D f ∧ 0 < f ∧ f < 2 ^ 20 ∧ f ∉ L.free l ∧ L.free l ⊆ L.free s.localmem := by
  rcases L.pageAlloc_ok halloc with ⟨f', hf', heq, hout⟩
  obtain rfl : f = f' := Nat.eq_of_mul_eq_mul_right (by norm_num) heq
  have hrange := L.free_range _ f hf'
  have hsub := L.pageAlloc_free (l := s.localmem)
  rw [halloc] at hsub
  exact ⟨h.free f hf', hrange.1, hrange.2, hout, hsub⟩

/-- **A new page table** in the user half of a page directory. -/
lemma Roles.created {l : ρ} (h : Roles K L D s) (hd : d ∈ D) (hk : k < 768)
    (halloc : L.pageAlloc s.localmem = (.ok (f * 4096), l)) :
    Roles K L D { s with mem := (zeroFrame s.mem f).write d k (userPde f), localmem := l } := by
  rcases h.pageAlloc halloc with ⟨hspare, hpos, hlt, hout, hsub⟩
  have hdf : ∀ d ∈ D, d ≠ f := by
    rintro d hd rfl
    exact hspare.notDirectory hd
  have hdir : ∀ d' ∈ D, ∀ w, (zeroFrame s.mem f).write d k (userPde f) d' w
      = if d' = d ∧ w = k then userPde f else s.mem d' w := by
    intro d' hd' w
    by_cases hc : d' = d ∧ w = k
    · rw [if_pos hc, hc.1, hc.2, write_self]
    · rw [if_neg hc, PhysMem.write, if_neg hc, zeroFrame_of_ne (hdf d' hd')]
  have hother : ∀ f', f' ≠ f → f' ≠ d → ∀ w,
      (zeroFrame s.mem f).write d k (userPde f) f' w = s.mem f' w := by
    intro f' hf' hd' w
    rw [write_of_frame_ne hd', zeroFrame_of_ne hf']
  have hflat : ∀ i < 2 ^ 18, kernelFlatpt K ((zeroFrame s.mem f).write d k (userPde f)) i
      = kernelFlatpt K s.mem i := by
    intro i hi
    rw [kernelFlatpt_write_outside hi (h.notTable hd), kernelFlatpt_zeroFrame hi hspare.notTable]
  -- the new table is none of those that are in use
  have hnew : ∀ d' ∈ D, ∀ w < 768, Entry.present.get (s.mem d' w) = 1 →
      Entry.physAddr.get (s.mem d' w) ≠ f := by
    intro d' hd' w hw h1 heq
    rcases h.present d' hd' w hw h1 with ⟨f', hpde, hf', -, -, htaken⟩
    rw [hpde, physAddr_userPde hf'] at heq
    rcases L.pageAlloc_ok halloc with ⟨g, hg, hgf, -⟩
    obtain rfl : f = g := Nat.eq_of_mul_eq_mul_right (by norm_num) hgf
    exact htaken (heq ▸ hg)
  refine ⟨h.cr3, h.kernel.congr (hother _ hspare.notKernel.symm (h.directory d hd).2.1.symm),
    fun i hi h0 => ?_, fun f' hf' => h.free f' (hsub hf'), h.directory, fun d' hd' m hm => ?_,
    fun d' hd' w hw h0 => ?_, fun d' hd' w hw h1 => ?_,
    fun d₁ hd₁ d₂ hd₂ w₁ hw₁ w₂ hw₂ h₁ h₂ heq => ?_⟩
  · simp only [hflat i hi] at h0 ⊢
    exact h.blank i hi h0
  · simp only [hdir d' hd']
    rw [if_neg (by omega), h.linked d' hd' m hm]
  · simp only [hdir d' hd'] at h0 ⊢
    split_ifs at h0 ⊢ with hc
    · rw [present_userPde] at h0
      exact absurd h0 one_ne_zero
    · exact h.absent d' hd' w hw h0
  · simp only [hdir d' hd'] at h1 ⊢
    split_ifs at h1 ⊢ with hc
    · exact ⟨f, rfl, hlt, hspare, hpos.ne', hout⟩
    · rcases h.present d' hd' w hw h1 with ⟨f', hpde, hf', hspare', hne, htaken⟩
      exact ⟨f', hpde, hf', hspare', hne, fun hl => htaken (hsub hl)⟩
  · simp only [hdir d₁ hd₁, hdir d₂ hd₂] at h₁ h₂ heq
    by_cases hc₁ : d₁ = d ∧ w₁ = k
    · by_cases hc₂ : d₂ = d ∧ w₂ = k
      · rw [hc₁.1, hc₁.2, hc₂.1, hc₂.2]
        exact ⟨rfl, rfl⟩
      · simp only [if_pos hc₁, if_neg hc₂, physAddr_userPde hlt] at h₂ heq
        exact absurd heq.symm (hnew d₂ hd₂ w₂ hw₂ h₂)
    · by_cases hc₂ : d₂ = d ∧ w₂ = k
      · simp only [if_neg hc₁, if_pos hc₂, physAddr_userPde hlt] at h₁ heq
        exact absurd heq (hnew d₁ hd₁ w₁ hw₁ h₁)
      · simp only [if_neg hc₁, if_neg hc₂] at h₁ h₂ heq
        exact h.apart d₁ hd₁ d₂ hd₂ w₁ hw₁ w₂ hw₂ h₁ h₂ heq

/-- **What a walk does to the page directory** keeps the invariant, and the table it goes on with is
spare. -/
lemma Roles.pdeStep (h : Roles K L D t) (hd : d ∈ D) (hk : k < 768)
    (hstep : PdeStep K L t d k t' f n) : Roles K L D t' ∧ Keeps K L t t' ∧ Spare K D f := by
  cases hstep with
  | found h1 =>
      rcases h.present d hd k hk h1 with ⟨f, hpde, hf, hspare, -, -⟩
      rw [hpde, physAddr_userPde hf]
      exact ⟨h, Keeps.refl t, hspare⟩
  | created h0 hf halloc =>
      have hspare := h.free _ hf
      refine ⟨h.created hd hk halloc, Keeps.of_mem (h.pageAlloc halloc).2.2.2.2 ?_, hspare⟩
      intro f' hf' w
      rw [write_of_frame_ne, zeroFrame_of_ne]
      · rintro rfl
        exact hspare.notTable hf'
      · rintro rfl
        exact h.notTable hd hf'
  | failed h0 _ =>
      rw [h.absent d hd k hk h0]
      exact ⟨h.setLocalmem L.pageAlloc_free, Keeps.of_mem L.pageAlloc_free fun _ _ _ => rfl,
        h.spare_zero⟩

/-- **A walk** keeps the invariant, and ends in a frame that is spare. -/
lemma Roles.walked {r : I686PagewalkContext × ℕ} (h : Roles K L D t) (hd : d ∈ D)
    (hv : v < highstart) (hwalked : Walked K L t d v W t' f r s) :
    Roles K L D s ∧ Keeps K L t s ∧ s.as = t.as ∧ Spare K D f := by
  have hk : v / 2 ^ 22 < 768 := by
    unfold highstart at hv
    omega
  rcases hwalked.step with ⟨f', n, hstep, -, hframe⟩
  have hnext := h.pdeStep hd hk hstep
  refine ⟨hnext.1.opens hwalked.opens, hnext.2.1.trans hwalked.opens.keeps,
    hwalked.opens.as.trans hstep.as, ?_⟩
  rcases hwalked.entry with ⟨i, -, -, -, hshows, hzero⟩
  by_cases hpage : v / 2 ^ 12 = 0
  · -- the window is as it was taken
    rcases hzero hpage with ⟨hfresh, hstale⟩
    rw [hstale, h.blank i hshows.lt hfresh]
    exact h.spare_zero
  · rw [hframe hpage]
    exact hnext.2.2

/-- Changing an entry of a spare frame. -/
lemma Roles.changeEntry (h : Roles K L D s) (hf : Spare K D f) (g : Word → Word) :
    Roles K L D (s.changeEntry f v g) ∧ Keeps K L s (s.changeEntry f v g) := by
  have hne : ∀ f', ¬Spare K D f' → f' ≠ f := by
    rintro f' hf' rfl
    exact hf' hf
  exact ⟨h.setMem fun f' hf' w => write_of_frame_ne (hne f' hf'),
    Keeps.of_mem Set.Subset.rfl fun f' hf' w =>
      write_of_frame_ne (hne f' fun hs => hs.notTable hf')⟩

/-! ## Operations -/

/-- What an operation on the page directories `D` does. -/
structure Step (K : KernelImage) (L : Localmem ρ) (D : Set ℕ) (t s : Machine ρ) : Prop where
  roles : Roles K L D s
  keeps : Keeps K L t s
  as : s.as = t.as

lemma Roles.outOfWindows (h : Roles K L D t) (hout : OutOfWindows K t s) : Step K L D t s := by
  rcases hout with ⟨ctx, W, hfailed⟩
  exact ⟨h.opens hfailed.opens, hfailed.opens.keeps, hfailed.opens.as⟩

/-- **Calls on user pages** keep the invariant. -/
lemma Roles.userPageCall_wp {c : ℕ} (h : Roles K L D t) (hd : c / 4096 % 2 ^ 20 ∈ D)
    (hv : v < highstart) (call : UserPageCall) :
    Prog.wp (userPageCall K L c v call) (fun _ s' => Step K L D t s') (fun _ => True) t := by
  have hv' : v < 2 ^ 32 := by
    unfold highstart at hv
    omega
  have hstore : ∀ {W t' f r s} (g : Word → Word), Walked K L t (c / 4096 % 2 ^ 20) v W t' f r s →
      Step K L D t (s.changeEntry f v g) := by
    intro W t' f r s g hwalked
    rcases h.walked hd hv hwalked with ⟨hroles, hkeeps, has, hspare⟩
    have hchange := hroles.changeEntry (v := v) hspare g
    exact ⟨hchange.1, hkeeps.trans hchange.2, has⟩
  cases call with
  | getPage =>
      refine (Prog.wp_bind _ _).mpr (Prog.wp_mono (i686UserGetPage_wp h.running (h.notTable hd) hv'
        fun _ => h.canWipe) ?_ fun _ he => he.elim)
      rintro _ s' (⟨W, t', f, r, hwalked, -⟩ | ⟨-, hout⟩)
      · rcases h.walked hd hv hwalked with ⟨hroles, hkeeps, has, -⟩
        exact (Prog.wp_pure _).mpr ⟨hroles, hkeeps, has⟩
      · exact (Prog.wp_pure _).mpr (h.outOfWindows hout)
  | mapPage p =>
      refine Prog.wp_mono (i686UserMapPage_wp h.running (h.notTable hd) hv' (fun _ => h.canWipe) p)
        ?_ fun _ he => he.elim
      rintro _ s' (⟨W, t', f, r, s, hwalked, -, rfl⟩ | ⟨-, hout⟩)
      · exact hstore _ hwalked
      · exact h.outOfWindows hout
  | setPageFlags flags =>
      refine Prog.wp_mono (i686UserSetPageFlags_wp h.running (h.notTable hd) hv'
        (fun _ => h.canWipe) flags) ?_ fun _ _ => trivial
      rintro _ s' ⟨W, t', f, r, s, hwalked, -, rfl⟩
      exact hstore _ hwalked

/-- Linking a page directory again. -/
lemma Roles.setPdes (h : Roles K L D s) (hd : d ∈ D) :
    Step K L D s { s with mem := Akaris.setPdes K s.mem d 768 256 } := by
  have hlow : ∀ d' w, w < 768 → Akaris.setPdes K s.mem d 768 256 d' w = s.mem d' w :=
    fun d' w hw => setPdes_of_lt hw
  have hother : ∀ f, f ≠ d → ∀ w, Akaris.setPdes K s.mem d 768 256 f w = s.mem f w :=
    fun f hf w => setPdes_of_frame_ne hf
  have hflat : ∀ i < 2 ^ 18, kernelFlatpt K (Akaris.setPdes K s.mem d 768 256) i
      = kernelFlatpt K s.mem i := fun i hi => kernelFlatpt_setPdes hi (h.notTable hd)
  refine ⟨⟨h.cr3, h.kernel.setPdes, fun i hi h0 => ?_, h.free, h.directory,
    fun d' hd' => (h.linked d' hd').setPdes, fun d' hd' w hw h0 => ?_, fun d' hd' w hw h1 => ?_,
    fun d₁ hd₁ d₂ hd₂ w₁ hw₁ w₂ hw₂ h₁ h₂ heq => ?_⟩, ⟨rfl, Set.Subset.rfl, fun i hi _ => hflat i hi⟩,
    rfl⟩
  · simp only [hflat i hi] at h0 ⊢
    exact h.blank i hi h0
  · simp only [hlow d' w hw] at h0 ⊢
    exact h.absent d' hd' w hw h0
  · simp only [hlow d' w hw] at h1 ⊢
    exact h.present d' hd' w hw h1
  · simp only [hlow d₁ w₁ hw₁, hlow d₂ w₂ hw₂] at h₁ h₂ heq
    exact h.apart d₁ hd₁ d₂ hd₂ w₁ hw₁ w₂ hw₂ h₁ h₂ heq

/-- **`setup_kernelspace`** on a page directory of `D`. -/
lemma Roles.setupKernelspace_wp {c : ℕ} (h : Roles K L D t) (hd : c / 4096 % 2 ^ 20 ∈ D) :
    Prog.wp (i686SetupKernelspace K c) (fun _ s' => Step K L D t s') (fun _ => True) t := by
  refine Prog.wp_mono (i686SetupKernelspace_wp h.running (h.notTable hd)) ?_ fun _ _ => trivial
  rintro _ s' ⟨-, i, j, -, hopens⟩
  have hpdes := h.setPdes hd
  exact ⟨hpdes.roles.opens hopens, hpdes.keeps.trans hopens.keeps, hopens.as⟩

/-- **`kernel_alloc`**. -/
lemma Roles.kernelAlloc_wp (h : Roles K L D t) :
    Prog.wp (i686KernelAlloc K 1)
      (fun r s' => Step K L D t s' ∧ ∀ a, r = .ok a → ∃ i < 2 ^ 18, a = window i ∧
        Entry.present.get (kernelFlatpt K t.mem i) = 0 ∧
        Entry.present.get (kernelFlatpt K s'.mem i) = 1)
      (fun _ => True) t := by
  refine Prog.wp_mono (i686KernelAlloc_wp (Opens.refl t)) ?_ fun _ _ => trivial
  rintro r s' (⟨i, rfl, -, hopens, -, -⟩ | ⟨rfl, -, rfl⟩)
  · have hi := Finset.mem_insert_self i ∅
    have hfresh := hopens.mem.fresh i hi
    refine ⟨⟨h.opens hopens, hopens.keeps, hopens.as⟩, fun a ha => ⟨i, hfresh.1, ?_, hfresh.2,
      hopens.mem.opened i hi⟩⟩
    exact (Except.ok.inj ha).symm
  · exact ⟨⟨h, Keeps.refl _, rfl⟩, fun a ha => absurd ha (by simp)⟩

/-- **`kernel_map_virt_to_phys`** of a kernel page that is present. -/
lemma Roles.kernelMap (h : Roles K L D t) {i : ℕ} (hi : i < 2 ^ 18)
    (h1 : Entry.present.get (kernelFlatpt K t.mem i) = 1) (p : ℕ) :
    Roles K L D { t with
      mem := setKernelFlatpt K t.mem i (windowPte (kernelFlatpt K t.mem i) p) } := by
  refine h.transfer rfl (fun w => setKernelFlatpt_outside hi kernelPd_notTable)
    (fun d hd w => setKernelFlatpt_outside hi (h.notTable hd)) (fun j hj h0 => ?_) Set.Subset.rfl
  refine setKernelFlatpt_of_ne ?_
  rintro rfl
  simp only [setKernelFlatpt_self, present_windowPte] at h0
  exact absurd h0 one_ne_zero

/-- **A new page directory**, in a frame that was handed out, wiped and linked. -/
lemma Roles.insert {l : ρ} {as : ℕ → AddressSpace} (h : Roles K L D t)
    (halloc : L.pageAlloc t.localmem = (.ok (f * 4096), l)) :
    Roles K L (Insert.insert f D) { t with
      mem := Akaris.setPdes K (zeroFrame t.mem f) f 768 256, localmem := l, as := as } := by
  rcases h.pageAlloc halloc with ⟨hspare, hpos, hlt, hout, hsub⟩
  rcases L.pageAlloc_ok halloc with ⟨f', hf', heq, -⟩
  obtain rfl : f = f' := Nat.eq_of_mul_eq_mul_right (by norm_num) heq
  have hother : ∀ f', f' ≠ f → ∀ w,
      Akaris.setPdes K (zeroFrame t.mem f) f 768 256 f' w = t.mem f' w := by
    intro f' hne w
    rw [setPdes_of_frame_ne hne, zeroFrame_of_ne hne]
  have hdir : ∀ d ∈ D, ∀ w, Akaris.setPdes K (zeroFrame t.mem f) f 768 256 d w = t.mem d w := by
    intro d hd
    refine hother d ?_
    rintro rfl
    exact hspare.notDirectory hd
  have hblank : ∀ w < 768, Akaris.setPdes K (zeroFrame t.mem f) f 768 256 f w = 0 := by
    intro w hw
    rw [setPdes_of_lt hw, zeroFrame_self (by omega)]
  have hflat : ∀ i < 2 ^ 18, kernelFlatpt K (Akaris.setPdes K (zeroFrame t.mem f) f 768 256) i
      = kernelFlatpt K t.mem i := by
    intro i hi
    rw [kernelFlatpt_setPdes hi hspare.notTable, kernelFlatpt_zeroFrame hi hspare.notTable]
  -- an entry that is present is one of a page directory of before
  have hold : ∀ d ∈ Insert.insert f D, ∀ w < 768, Entry.present.get
      (Akaris.setPdes K (zeroFrame t.mem f) f 768 256 d w) = 1 → d ∈ D := by
    intro d hd w hw h1
    rcases Set.mem_insert_iff.mp hd with rfl | hd
    · rw [hblank w hw, Field.get_zero] at h1
      exact absurd h1 zero_ne_one
    · exact hd
  refine ⟨h.cr3, h.kernel.congr (hother _ hspare.notKernel.symm), fun i hi h0 => ?_,
    fun f' hfree => ?_, fun d hd => ?_, fun d hd => ?_, fun d hd w hw h0 => ?_,
    fun d hd w hw h1 => ?_, fun d₁ hd₁ d₂ hd₂ w₁ hw₁ w₂ hw₂ h₁ h₂ heq' => ?_⟩
  · simp only [hflat i hi] at h0 ⊢
    exact h.blank i hi h0
  · have hbefore := h.free f' (hsub hfree)
    refine ⟨hbefore.notTable, hbefore.notKernel, ?_⟩
    rintro (rfl | hD)
    · exact hout hfree
    · exact hbefore.notDirectory hD
  · rcases Set.mem_insert_iff.mp hd with rfl | hd
    · exact ⟨hpos.ne', hspare.notKernel, hspare.notTable⟩
    · exact h.directory d hd
  · rcases Set.mem_insert_iff.mp hd with rfl | hd
    · exact setPdes_linksKernel
    · exact (h.linked d hd).congr (hdir d hd)
  · rcases Set.mem_insert_iff.mp hd with rfl | hd
    · simp only [hblank w hw, Field.get_zero]
    · simp only [hdir d hd] at h0 ⊢
      exact h.absent d hd w hw h0
  · have hd' := hold d hd w hw h1
    simp only [hdir d hd'] at h1 ⊢
    rcases h.present d hd' w hw h1 with ⟨f', hpde, hlt', hspare', hne, htaken⟩
    refine ⟨f', hpde, hlt', ⟨hspare'.notTable, hspare'.notKernel, ?_⟩, hne,
      fun hl => htaken (hsub hl)⟩
    rintro (rfl | hD)
    · exact htaken hf'
    · exact hspare'.notDirectory hD
  · have hd₁' := hold d₁ hd₁ w₁ hw₁ h₁
    have hd₂' := hold d₂ hd₂ w₂ hw₂ h₂
    simp only [hdir d₁ hd₁', hdir d₂ hd₂'] at h₁ h₂ heq'
    exact h.apart d₁ hd₁' d₂ hd₂' w₁ hw₁ w₂ hw₂ h₁ h₂ heq'

end Roles

end Akaris
