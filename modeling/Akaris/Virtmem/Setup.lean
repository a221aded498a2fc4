import Akaris.Virtmem.Walk

/-!
# Setting up a page directory

The page directory of a new address space is a frame of `localmem` that `i686_address_space_ctor`
wipes, `i686AddressSpaceCtor_wp`, and `setup_kernelspace` then links to the kernel half,
`i686SetupKernelspace_wp`.  `setPdes` is what the loop of `i686_set_kernel_pdes` does to memory.
-/

namespace Akaris

variable {ρ : Type} {K : KernelImage} {L : Localmem ρ}

-- the rules are all that is used of it: computing it would run the program
attribute [local irreducible] Prog.wp

/-- The page directory in frame `d` with the entries from `cur` on, `n` of them, linked to the
kernel tables. -/
def setPdes (K : KernelImage) (mem : PhysMem) (d cur n : ℕ) : PhysMem :=
  fun f w => if f = d ∧ cur ≤ w ∧ w < cur + n then kernelPde K (w - 768) else mem f w

section SetPdes

variable {mem : PhysMem} {d cur n f w i : ℕ}

lemma setPdes_of_frame_ne (h : f ≠ d) : setPdes K mem d cur n f w = mem f w :=
  if_neg fun hc => h hc.1

lemma setPdes_of_lt (h : w < cur) : setPdes K mem d cur n f w = mem f w :=
  if_neg fun hc => absurd hc.2.1 (by omega)

@[simp] lemma setPdes_zero : setPdes K mem d cur 0 = mem := by
  funext f w
  exact if_neg fun hc => absurd hc.2 (by omega)

/-- One entry more. -/
lemma setPdes_succ : setPdes K (mem.write d cur (kernelPde K (cur - 768))) d (cur + 1) n =
    setPdes K mem d cur (n + 1) := by
  funext f w
  by_cases hf : f = d
  · by_cases hw : w = cur
    · rw [setPdes_of_lt (by omega), hf, hw, write_self, setPdes, if_pos ⟨rfl, by omega, by omega⟩]
    · simp only [setPdes, write_of_word_ne hw]
      refine if_congr ?_ rfl rfl
      omega
  · rw [setPdes_of_frame_ne hf, setPdes_of_frame_ne hf, write_of_frame_ne hf]

/-- **The page directory is linked** when all entries of the kernel half are set. -/
lemma setPdes_linksKernel : LinksKernel K (setPdes K mem d 768 256) d := by
  intro k hk
  rw [setPdes, if_pos ⟨rfl, by omega, by omega⟩, Nat.add_sub_cancel_left]

/-- A page directory that is linked stays so. -/
lemma LinksKernel.setPdes {d' : ℕ} (h : LinksKernel K mem d') :
    LinksKernel K (setPdes K mem d 768 256) d' := by
  by_cases hd : d' = d
  · rw [hd]
    exact setPdes_linksKernel
  · exact h.congr fun w => setPdes_of_frame_ne hd

lemma kernelFlatpt_setPdes (hi : i < 2 ^ 18) (hd : ¬K.HoldsTable d) :
    kernelFlatpt K (Akaris.setPdes K mem d cur n) i = kernelFlatpt K mem i := by
  refine setPdes_of_frame_ne ?_
  rintro rfl
  exact hd (holdsTable_of_lt hi)

end SetPdes

section Setup

variable {t s : Machine ρ} {W : Finset ℕ} {d j n cur c : ℕ}

/-- Storing a link keeps the running page directory linked. -/
lemma Running.writeLink (h : Running K s) (k : ℕ) :
    Running K { s with mem := s.mem.write d (768 + k) (kernelPde K k) } := by
  refine ⟨fun m hm => ?_, h.apart⟩
  show s.mem.write d (768 + k) (kernelPde K k) (s.cr3 / 4096) (768 + m) = kernelPde K m
  by_cases hd : s.cr3 / 4096 = d
  · by_cases hmk : m = k
    · rw [hd, hmk, write_self]
    · rw [write_of_word_ne (by omega), h.linked m hm]
  · rw [write_of_frame_ne hd, h.linked m hm]

/-- **The loop over the kernel half**, in a window. -/
lemma i686SetKernelPdes_run (h : Running K s) (hs : Shows K s.mem j d) (hd : ¬K.HoldsTable d)
    (hcur : 768 ≤ cur) (hn : cur + n ≤ 1024) :
    (i686SetKernelPdes K (window j) n cur).run s
      = .ok ((), { s with mem := setPdes K s.mem d cur n }) := by
  induction n generalizing s cur with
  | zero => rw [i686SetKernelPdes, Prog.run_pure, setPdes_zero]
  | succ n ih =>
      have hword : i686SetPde (s.mem d cur) ((K.kernelPts + (cur - nStartPde)) * pgSize)
          (i686PagePresent ||| i686PageWritable) = kernelPde K (cur - 768) := i686SetPde_eq _ _ _
      have hlink : Running K { s with mem := s.mem.write d cur (kernelPde K (cur - 768)) } := by
        have hrun := h.writeLink (d := d) (cur - 768)
        rwa [Nat.add_sub_of_le hcur] at hrun
      rw [i686SetKernelPdes, Prog.run_bind_ok (modifyWord_run h hs (by omega) _), hword,
        ih hlink (hs.write hd) (by omega) (by omega), setPdes_succ]

lemma Opens.setPdes (h : Opens K W t s) (hd : ¬K.HoldsTable d) :
    Opens K W { t with mem := setPdes K t.mem d cur n }
      { s with mem := setPdes K s.mem d cur n } := by
  have hne : ∀ f', K.HoldsTable f' → f' ≠ d := by
    rintro f' hf' rfl
    exact hd hf'
  refine ⟨?_, h.cr3, h.localmem, h.as⟩
  refine h.mem.congr (fun f' w' hf' => setPdes_of_frame_ne (hne f' hf'))
    (fun f' w' hf' => setPdes_of_frame_ne (hne f' hf')) fun f' w' hf' => ?_
  simp only [Akaris.setPdes, h.mem.outside f' w' hf']

/-- **`setup_kernelspace`** links the kernel half of the page directory, through two windows. -/
lemma i686SetupKernelspace_wp (hrun : Running K t) (hd : ¬K.HoldsTable (c / 4096 % 2 ^ 20)) :
    Prog.wp (i686SetupKernelspace K c)
      (fun r s' => r = .ok () ∧ ∃ i j, i ≠ j ∧
        Opens K {j, i} { t with mem := setPdes K t.mem (c / 4096 % 2 ^ 20) 768 256 } s')
      (fun e => e = .uninitialised ∧ freeWindows K t.mem < 2) t := by
  rw [i686SetupKernelspace, Prog.wp_bind]
  refine Prog.wp_mono (i686PagewalkInit_wp t c) ?_ fun _ he => he.elim
  rintro ⟨err, ctx⟩ s (⟨-, i, j, rfl, hij, hopens, hshows, -⟩ | ⟨-, W, hfailed⟩)
  · have hpdes : (i686SetKernelPdes K (window j) nKernelPde nStartPde).run s = .ok ((), _) :=
      i686SetKernelPdes_run (hopens.running hrun) hshows hd le_rfl le_rfl
    refine (Prog.wp_bind _ _).mpr ((Prog.wp_pure _).mpr ((Prog.wp_bind _ _).mpr
      ((Prog.wp_of_run hpdes).mpr ((Prog.wp_bind _ _).mpr ?_))))
    rw [Prog.wp_of_run (i686PagewalkDone_run (Option.some_ne_none _) (Option.some_ne_none _) _),
      Prog.wp_pure]
    exact ⟨rfl, i, j, hij, hopens.setPdes hd⟩
  · have hfew := hfailed.few
    rw [← hfailed.full] at hfew
    have hpd : ctx.pd = none := hfailed.pd
    refine (Prog.wp_bind _ _).mpr ?_
    rw [hpd]
    exact (Prog.wp_fault _).mpr ⟨rfl, hfew⟩

/-! ## The constructor -/

/-- The machine after the page directory of the address space `as` was put in frame `f`. -/
def Machine.setPd (t : Machine ρ) (as f : ℕ) (l : ρ) : Machine ρ :=
  { t with localmem := l, as := Function.update t.as as { t.as as with pd := f * 4096 } }

/-- **`i686_address_space_ctor`** takes a frame for the page directory, and wipes it if a window is
left. -/
lemma i686AddressSpaceCtor_wp (hrun : Running K t) (hwipe : CanWipe K L t) (as : ℕ) :
    Prog.wp (i686AddressSpaceCtor K L as)
      (fun _ s' => ∃ f ∈ L.free t.localmem, ∃ l, L.pageAlloc t.localmem = (.ok (f * 4096), l) ∧
        ((∃ i, Opens K {i} { t.setPd as f l with mem := zeroFrame t.mem f } s') ∨
          (freeWindows K t.mem = 0 ∧ s' = t.setPd as f l)))
      (fun e => e = .uninitialised ∧ ∃ e, (L.pageAlloc t.localmem).1 = .error e) t := by
  rw [i686AddressSpaceCtor, Prog.wp_bind, Prog.wp_of_run (localmemPageAlloc_run t)]
  cases hr : (L.pageAlloc t.localmem).1 with
  | error e => exact (Prog.wp_fault _).mpr ⟨rfl, e, rfl⟩
  | ok address =>
      rcases L.pageAlloc_ok (Prod.ext hr rfl) with ⟨f, hf, rfl, -⟩
      have hplain := hwipe f hf
      have hrange := L.free_range _ f hf
      refine (Prog.wp_bind _ _).mpr ((Prog.wp_update _).mpr ((Prog.wp_bind _ _).mpr ?_))
      have h₀ : Opens K ∅ (t.setPd as f (L.pageAlloc t.localmem).2)
          (t.setPd as f (L.pageAlloc t.localmem).2) := Opens.refl _
      refine Prog.wp_mono (i686KernelAlloc_wp h₀) ?_ fun _ he => he.elim
      rintro _ s₂ (⟨m, rfl, hm, h₂, -, -⟩ | ⟨rfl, hfull, rfl⟩)
      · refine (Prog.wp_bind _ _).mpr (Prog.wp_mono
          (i686KernelMapVirtToPhys_wp h₂ (Finset.mem_insert_self m ∅) _) ?_ fun _ he => he.elim)
        rintro _ s₃ ⟨-, h₃, hshows₃, -⟩
        rw [physAddr_frame hrange.2] at hshows₃
        have hrun₃ : Running K s₃ := h₃.running ⟨hrun.linked, hrun.apart⟩
        have hplain₃ : PlainFrame K s₃.cr3 f := by
          rw [h₃.cr3]
          exact hplain
        rw [Prog.wp_bind, Prog.wp_of_run (memset_page_run hrun₃ hshows₃ hplain₃), Prog.wp_bind,
          i686KernelFree, Prog.wp_pure, Prog.wp_pure]
        exact ⟨f, hf, _, Prod.ext hr rfl, Or.inl ⟨m, h₃.zeroFrame hplain.notTable⟩⟩
      · exact (Prog.wp_pure _).mpr ⟨f, hf, _, Prod.ext hr rfl, Or.inr ⟨hfull, rfl⟩⟩

end Setup

end Akaris
