import Akaris.AddressSpace.Mapping
import Akaris.AddressSpace.Regions
import Akaris.Virtmem.Balance
import Akaris.Virtmem.UserPages

/-!
# Regions and the kernel half

`memory_region_map` calls on one page after the other, wherever the region lies: nothing keeps a
region out of the kernel half, whose page tables all address spaces share.  A call on a page of the
kernel half stores to `kernel_pts`, and a call on any page leaves its windows open.  `Paused` is the
state between two calls on one page.

* **`region_disturbs_kernel_iff`** — mapping a region leaves the kernel half alone exactly when the
  region has no pages.  A region in the user half leaves alone the kernel pages that are mapped.
-/

namespace Akaris

variable {ρ : Type} {K : KernelImage} {L : Localmem ρ}

-- the rules are all that is used of it: computing it would run the program
attribute [local irreducible] Prog.wp

/-- What calls on kernel page `i` may do: open windows, and change the entry of the page. -/
structure Touches (K : KernelImage) (L : Localmem ρ) (i : ℕ) (t s : Machine ρ) : Prop where
  cr3 : s.cr3 = t.cr3
  free : L.free s.localmem ⊆ L.free t.localmem
  outside : ∀ f, ¬K.HoldsTable f → ∀ w, s.mem f w = t.mem f w
  other : ∀ j < 2 ^ 18, j ≠ i → Entry.present.get (kernelFlatpt K s.mem j) = 0 →
    kernelFlatpt K s.mem j = kernelFlatpt K t.mem j
  reserved : reservedPages K t.mem ⊆ reservedPages K s.mem

/-- **Between two calls** on page `v`, the first of which began in the machine `t`. -/
inductive Paused (K : KernelImage) (L : Localmem ρ) (D : Set ℕ) (v : ℕ) (t s : Machine ρ) : Prop
  | user : v < highstart → Step K L D t s → Paused K L D v t s
  | kernel (i o : ℕ) : i < 2 ^ 18 → o < 4096 → v = window i + o → Touches K L i t s →
      Paused K L D v t s

section Paused

variable {D : Set ℕ} {t s u t' : Machine ρ} {W : Finset ℕ} {c d f i k v : ℕ}

/-! ## Calls on kernel pages -/

lemma Touches.refl (t : Machine ρ) : Touches K L i t t :=
  ⟨rfl, Set.Subset.rfl, fun _ _ _ => rfl, fun _ _ _ _ => rfl, Finset.Subset.refl _⟩

lemma Touches.trans (h : Touches K L i t s) (h' : Touches K L i s u) : Touches K L i t u := by
  refine ⟨h'.cr3.trans h.cr3, h'.free.trans h.free,
    fun f hf w => (h'.outside f hf w).trans (h.outside f hf w), fun j hj hne h0 => ?_,
    h.reserved.trans h'.reserved⟩
  have hlast := h'.other j hj hne h0
  rw [hlast] at h0
  rw [hlast, h.other j hj hne h0]

lemma Opens.reserved (h : Opens K W t s) : reservedPages K t.mem ⊆ reservedPages K s.mem := by
  intro i hi
  rw [mem_reservedPages] at hi ⊢
  exact ⟨hi.1, by rw [h.mem.kept hi.1 hi.2, hi.2]⟩

lemma Opens.touches (h : Opens K W t s) : Touches K L i t s := by
  refine ⟨h.cr3, ?_, fun f hf w => h.outside hf,
    fun j hj _ h0 => h.mem.other j hj (h.mem.notMem h0), h.reserved⟩
  rw [h.localmem]

lemma Keeps.reserved (h : Keeps K L t s) : reservedPages K t.mem ⊆ reservedPages K s.mem := by
  intro i hi
  rw [mem_reservedPages] at hi ⊢
  exact ⟨hi.1, by rw [h.pages i hi.1 hi.2, hi.2]⟩

/-- Where the entry of a kernel page is. -/
lemma window_indices {o : ℕ} (ho : o < 4096) :
    (window i + o) / 2 ^ 22 = 768 + i / 1024 ∧ (window i + o) / 2 ^ 12 % 2 ^ 10 = i % 1024 := by
  unfold window highstart
  omega

/-- Changing the entry of a kernel page. -/
lemma touches_changeEntry {o : ℕ} {g : Word → Word} (hi : i < 2 ^ 18) (ho : o < 4096)
    (hg : ∀ x, Entry.present.get x = 1 → Entry.present.get (g x) = 1) :
    Touches K L i s (s.changeEntry (K.kernelPts + i / 1024) (window i + o) g) := by
  refine ⟨rfl, Set.Subset.rfl, fun f hf w => write_of_frame_ne ?_, fun j hj hne _ => if_neg ?_,
    reservedPages_changeEntry hg⟩
  · rintro rfl
    exact hf (holdsTable_of_lt hi)
  · rw [(window_indices ho).2]
    rintro ⟨hframe, hindex⟩
    omega

lemma Touches.links (h : Touches K L i t s) (hd : ¬K.HoldsTable d) (hlink : LinksKernel K t.mem d) :
    LinksKernel K s.mem d := hlink.congr fun w => h.outside d hd w

/-- **The invariant comes back** once the kernel page is present. -/
lemma Touches.roles (h : Touches K L i t s) (hroles : Roles K L D t)
    (h1 : Entry.present.get (kernelFlatpt K s.mem i) = 1) : Roles K L D s := by
  refine hroles.transfer h.cr3 (h.outside _ kernelPd_notTable)
    (fun d hd => h.outside d (hroles.notTable hd)) (fun j hj h0 => ?_) h.free
  refine h.other j hj ?_ h0
  rintro rfl
  rw [h1] at h0
  exact one_ne_zero h0

/-! ## Calls on any page -/

lemma Roles.paused (h : Roles K L D t) (hv : v < 2 ^ 32) : Paused K L D v t t := by
  rcases lt_or_ge v highstart with huser | hkernel
  · exact .user huser ⟨h, Keeps.refl t, rfl⟩
  · rcases exists_window hkernel hv with ⟨i, hi, o, ho, rfl⟩
    exact .kernel i o hi ho rfl (Touches.refl t)

section Between

variable (h₀ : Roles K L D t) (h : Paused K L D v t s)

include h

lemma Paused.reserved : reservedPages K t.mem ⊆ reservedPages K s.mem := by
  cases h with
  | user _ hstep => exact hstep.keeps.reserved
  | kernel _ _ _ _ _ htouch => exact htouch.reserved

lemma Paused.lt : v < 2 ^ 32 := by
  cases h with
  | user hv _ =>
      unfold highstart at hv
      omega
  | kernel i o hi ho hv _ =>
      subst hv
      unfold window highstart
      omega

lemma Paused.opens (hopens : Opens K W s u) : Paused K L D v t u := by
  cases h with
  | user hv hstep =>
      exact .user hv (hstep.trans ⟨hstep.roles.opens hopens, hopens.keeps, hopens.as⟩)
  | kernel i o hi ho hv htouch => exact .kernel i o hi ho hv (htouch.trans hopens.touches)

/-- Taking a frame. -/
lemma Paused.pageAlloc_wp :
    Prog.wp (callVirtmem (i686Cpu K L).physmemPageAlloc)
      (fun _ s' => Paused K L D v t s' ∧ s'.mem = s.mem) (fun _ => True) s := by
  rw [callVirtmem, Prog.wp_zoom]
  refine (Prog.wp_of_run (localmemPageAlloc_run (L := L) s)).mpr ⟨?_, rfl⟩
  cases h with
  | user hv hstep =>
      exact .user hv (hstep.trans ⟨hstep.roles.setLocalmem L.pageAlloc_free,
        Keeps.of_mem L.pageAlloc_free fun _ _ _ => rfl, rfl⟩)
  | kernel i o hi ho hv htouch =>
      exact .kernel i o hi ho hv (htouch.trans ⟨rfl, L.pageAlloc_free, fun _ _ _ => rfl,
        fun _ _ _ _ => rfl, Finset.Subset.refl _⟩)

include h₀

lemma Paused.links (hd : d ∈ D) : LinksKernel K s.mem d := by
  cases h with
  | user _ hstep => exact hstep.roles.linked d hd
  | kernel _ _ _ _ _ htouch => exact htouch.links (h₀.notTable hd) (h₀.linked d hd)

lemma Paused.running : Running K s := by
  cases h with
  | user _ hstep => exact hstep.roles.running
  | kernel _ _ _ _ _ htouch =>
      have hrun := h₀.running
      refine ⟨?_, ?_⟩
      · rw [htouch.cr3]
        exact htouch.links hrun.apart hrun.linked
      · rw [htouch.cr3]
        exact hrun.apart

lemma Paused.canWipe : CanWipe K L s := by
  cases h with
  | user _ hstep => exact hstep.roles.canWipe
  | kernel _ _ _ _ _ htouch =>
      intro f hf
      rw [htouch.cr3]
      exact h₀.canWipe f (htouch.free hf)

/-- **What is stored through a walk**, in the user half or in the kernel half. -/
lemma Paused.changeEntry (hd : d ∈ D) {r : I686PagewalkContext × ℕ} {g : Word → Word}
    (hwalked : Walked K L s d v W t' f r u)
    (hg : ∀ x, Entry.present.get x = 1 → Entry.present.get (g x) = 1) :
    Paused K L D v t (u.changeEntry f v g) ∧
      reservedPages K s.mem ⊂ reservedPages K (u.changeEntry f v g).mem ∧
      ((∀ x, Entry.present.get (g x) = 1) → Roles K L D (u.changeEntry f v g)) := by
  have hdtable := h₀.notTable hd
  have htakes := (hwalked.takes hdtable fun _ => h.canWipe h₀).trans_subset
    (reservedPages_changeEntry (v := v) (f := f) hg)
  cases h with
  | user hv hstep =>
      rcases hstep.roles.walked hd hv hwalked with ⟨hroles, hkeeps, has, hspare⟩
      have hchange := hroles.changeEntry (v := v) hspare g
      exact ⟨.user hv (hstep.trans ⟨hchange.1, hkeeps.trans hchange.2, has⟩), htakes,
        fun _ => hchange.1⟩
  | kernel i o hi ho hv htouch =>
      subst hv
      -- the entry of the page directory is one of the kernel half
      have hpde : s.mem d ((window i + o) / 2 ^ 22) = kernelPde K (i / 1024) := by
        rw [(window_indices ho).1]
        exact htouch.links hdtable (h₀.linked d hd) _ (by omega)
      rcases hwalked.found (by rw [hpde, present_kernelPde]) with ⟨rfl, -, hframe⟩
      have hf : f = K.kernelPts + i / 1024 := by
        rw [hframe (by unfold window highstart; omega), hpde, physAddr_kernelPde (by omega)]
      subst hf
      have hlast := (htouch.trans hwalked.opens.touches).trans
        (touches_changeEntry (L := L) (s := u) hi ho hg)
      refine ⟨.kernel i o hi ho rfl hlast, htakes, fun hpresent => hlast.roles h₀ ?_⟩
      have hword : kernelFlatpt K (u.changeEntry (K.kernelPts + i / 1024) (window i + o) g).mem i
          = g (u.mem (K.kernelPts + i / 1024) ((window i + o) / 2 ^ 12 % 2 ^ 10)) := by
        rw [kernelFlatpt, ← (window_indices ho).2]
        exact write_self
      rw [hword, hpresent]

/-- **`user_get_page`** between calls. -/
lemma Paused.getPage_wp (hc : c / 4096 % 2 ^ 20 ∈ D) :
    Prog.wp (i686UserGetPage K L c v)
      (fun r s' => Paused K L D v t s' ∧
        ((∃ p, r = .ok p) → reservedPages K s.mem ⊂ reservedPages K s'.mem))
      (fun _ => True) s := by
  refine Prog.wp_mono (i686UserGetPage_wp (h.running h₀) (h₀.notTable hc) h.lt
    fun _ => h.canWipe h₀) ?_ fun _ _ => trivial
  rintro _ s' (⟨W, t', f, r, hwalked, rfl⟩ | ⟨rfl, ctx, W, hfailed⟩)
  · have hsame : s'.changeEntry f v id = s' := by
      unfold Machine.changeEntry
      rw [id_eq, write_same]
    have hchange := h.changeEntry h₀ hc hwalked (g := id) fun _ hx => hx
    rw [hsame] at hchange
    exact ⟨hchange.1, fun _ => hchange.2.1⟩
  · refine ⟨h.opens hfailed.opens, ?_⟩
    rintro ⟨p, hp⟩
    exact absurd hp (by simp)

/-- **`user_map_page`** between calls. -/
lemma Paused.mapPage_wp (hc : c / 4096 % 2 ^ 20 ∈ D) (p : ℕ) :
    Prog.wp (i686UserMapPage K L c v p)
      (fun _ s' => Paused K L D v t s' ∧ reservedPages K s.mem ⊆ reservedPages K s'.mem)
      (fun _ => True) s := by
  refine Prog.wp_mono (i686UserMapPage_wp (h.running h₀) (h₀.notTable hc) h.lt
    (fun _ => h.canWipe h₀) p) ?_ fun _ _ => trivial
  rintro _ s' (⟨W, t', f, r, u, hwalked, rfl, rfl⟩ | ⟨rfl, ctx, W, hfailed⟩)
  · have hchange := h.changeEntry h₀ hc hwalked (g := fun x => Entry.physAddr.set x (p / 4096))
      fun x hx => by rw [Field.get_set_of_disjoint (by decide), hx]
    exact ⟨hchange.1, hchange.2.1.subset⟩
  · exact ⟨h.opens hfailed.opens, hfailed.opens.reserved⟩

/-- **`user_set_page_flags`** is the last call on a page. -/
lemma Paused.setPageFlags_wp (hc : c / 4096 % 2 ^ 20 ∈ D) (flags : ℕ) :
    Prog.wp (i686UserSetPageFlags K L c v flags)
      (fun _ s' => Roles K L D s' ∧ Paused K L D v t s' ∧
        reservedPages K s.mem ⊂ reservedPages K s'.mem)
      (fun _ => True) s := by
  refine Prog.wp_mono (i686UserSetPageFlags_wp (h.running h₀) (h₀.notTable hc) h.lt
    (fun _ => h.canWipe h₀) flags) ?_ fun _ _ => trivial
  rintro _ s' ⟨W, t', f, r, u, hwalked, rfl, rfl⟩
  have hchange := h.changeEntry h₀ hc hwalked (g := flagsEntry flags)
    fun x _ => present_flagsEntry flags x
  exact ⟨hchange.2.2 (present_flagsEntry flags), hchange.1, hchange.2.1⟩

end Between

/-! ## The loops -/

/-- **What mapping `n` pages** from `start` on does, in a page directory `d`. -/
structure PagesMapped (K : KernelImage) (L : Localmem ρ) (D : Set ℕ) (d start n : ℕ)
    (t s : Machine ρ) : Prop where
  links : LinksKernel K s.mem d
  reserved : reservedPages K t.mem ⊆ reservedPages K s.mem
  user : start + n * 4096 ≤ highstart → Step K L D t s

lemma Paused.mapped {n : ℕ} (h : Paused K L D v t s) (h₀ : Roles K L D t) (hd : d ∈ D) :
    PagesMapped K L D d v (n + 1) t s := by
  refine ⟨h.links h₀ hd, h.reserved, fun hend => ?_⟩
  cases h with
  | user _ hstep => exact hstep
  | kernel i o hi ho hv _ =>
      subst hv
      unfold window at hend
      omega

/-- The pages behind the first one. -/
lemma PagesMapped.cons {n : ℕ} (h : Paused K L D v t s) (h₀ : Roles K L D t) (hd : d ∈ D)
    (hrest : PagesMapped K L D d (wrap32 (v + 4096)) n s u) : PagesMapped K L D d v (n + 1) t u := by
  refine ⟨hrest.links, h.reserved.trans hrest.reserved, fun hend => ?_⟩
  have hlt : v + 4096 < 2 ^ 32 := by
    unfold highstart at hend
    omega
  have hnext : wrap32 (v + 4096) + n * 4096 ≤ highstart := by
    rw [wrap32_of_lt hlt]
    omega
  exact (((h.mapped h₀ hd (n := n)).user hend).trans (hrest.user hnext))

/-- What is left of a loop after a page: it maps `n` pages, from the next one on. -/
def MapsRest (K : KernelImage) (L : Localmem ρ) (D : Set ℕ) (d v n : ℕ)
    (rest : Prog (AsFault MachineFault) (Machine ρ) (Except AddressSpaceErr Unit)) : Prop :=
  ∀ {s : Machine ρ}, Roles K L D s → Prog.wp rest
    (fun _ u => PagesMapped K L D d (wrap32 (v + 4096)) n s u) (fun _ => True) s

section Loops

variable {n cur flags : ℕ}
  {rest : Prog (AsFault MachineFault) (Machine ρ) (Except AddressSpaceErr Unit)}

/-- The last call on a page, and the pages behind it. -/
lemma Paused.flags_wp (h₀ : Roles K L D t) (hc : c / 4096 % 2 ^ 20 ∈ D)
    (hrest : MapsRest K L D (c / 4096 % 2 ^ 20) cur n rest) (h : Paused K L D cur t s) :
    Prog.wp (do
      let _ ← callVirtmem ((i686Cpu K L).virtmemUserSetPageFlags c cur flags)
      rest)
      (fun _ u => PagesMapped K L D (c / 4096 % 2 ^ 20) cur (n + 1) t u ∧
        reservedPages K s.mem ⊂ reservedPages K u.mem)
      (fun _ => True) s := by
  rw [Prog.wp_bind, callVirtmem, Prog.wp_zoom]
  refine Prog.wp_mono (h.setPageFlags_wp h₀ hc flags) ?_ fun _ _ => trivial
  rintro _ s₁ ⟨hroles, hlast, htakes⟩
  refine Prog.wp_mono (hrest hroles) ?_ fun _ _ => trivial
  intro _ u hmapped
  exact ⟨PagesMapped.cons hlast h₀ hc hmapped, htakes.trans_subset hmapped.reserved⟩

/-- Both calls on a page that gets the frame at `p`, and the pages behind it. -/
lemma Paused.frame_wp (h₀ : Roles K L D t) (hc : c / 4096 % 2 ^ 20 ∈ D)
    (hrest : MapsRest K L D (c / 4096 % 2 ^ 20) cur n rest) (p : ℕ) (h : Paused K L D cur t s) :
    Prog.wp (do
      let _ ← callVirtmem ((i686Cpu K L).virtmemUserMapPage c cur p)
      let _ ← callVirtmem ((i686Cpu K L).virtmemUserSetPageFlags c cur flags)
      rest)
      (fun _ u => PagesMapped K L D (c / 4096 % 2 ^ 20) cur (n + 1) t u ∧
        reservedPages K s.mem ⊂ reservedPages K u.mem)
      (fun _ => True) s := by
  rw [Prog.wp_bind, callVirtmem, Prog.wp_zoom]
  refine Prog.wp_mono (h.mapPage_wp h₀ hc p) ?_ fun _ _ => trivial
  rintro _ s₁ ⟨hmid, hkept⟩
  refine Prog.wp_mono (hmid.flags_wp h₀ hc hrest) ?_ fun _ _ => trivial
  rintro _ u ⟨hmapped, htakes⟩
  exact ⟨hmapped, hkept.trans_ssubset htakes⟩

/-- A page without a frame, and the pages behind it: the loop ends here when there is no frame. -/
lemma Paused.allocate_wp
    {rest : ℕ → Prog (AsFault MachineFault) (Machine ρ) (Except AddressSpaceErr Unit)}
    (h₀ : Roles K L D t) (hc : c / 4096 % 2 ^ 20 ∈ D)
    (hrest : ∀ p, MapsRest K L D (c / 4096 % 2 ^ 20) cur n (rest p)) (h : Paused K L D cur t s) :
    Prog.wp (do
      match (← callVirtmem (i686Cpu K L).physmemPageAlloc) with
      | .error _ => return .error .oom
      | .ok p =>
          let _ ← callVirtmem ((i686Cpu K L).virtmemUserMapPage c cur p)
          let _ ← callVirtmem ((i686Cpu K L).virtmemUserSetPageFlags c cur flags)
          rest p)
      (fun _ u => PagesMapped K L D (c / 4096 % 2 ^ 20) cur (n + 1) t u ∧
        reservedPages K s.mem ⊆ reservedPages K u.mem)
      (fun _ => True) s := by
  refine (Prog.wp_bind _ _).mpr (Prog.wp_mono h.pageAlloc_wp ?_ fun _ _ => trivial)
  rintro r s₁ ⟨hmid, hsame⟩
  rw [← hsame]
  cases r with
  | error e => exact (Prog.wp_pure _).mpr ⟨hmid.mapped h₀ hc, Finset.Subset.refl _⟩
  | ok p =>
      refine Prog.wp_mono (hmid.frame_wp h₀ hc (hrest p) p) ?_ fun _ _ => trivial
      rintro _ u ⟨hmapped, htakes⟩
      exact ⟨hmapped, htakes.subset⟩

/-- **The loop over given frames.** -/
lemma memoryRegionMapExact_mapped {p : ℕ} (h₀ : Roles K L D t)
    (hc : c / 4096 % 2 ^ 20 ∈ D) (hcur : cur < 2 ^ 32) :
    Prog.wp (memoryRegionMapExact (i686Cpu K L) c flags n cur p)
      (fun _ s => PagesMapped K L D (c / 4096 % 2 ^ 20) cur n t s ∧
        (n ≠ 0 → reservedPages K t.mem ⊂ reservedPages K s.mem))
      (fun _ => True) t := by
  induction n generalizing cur p t with
  | zero =>
      rw [memoryRegionMapExact, Prog.wp_pure]
      exact ⟨⟨h₀.linked _ hc, Finset.Subset.refl _, fun _ => ⟨h₀, Keeps.refl t, rfl⟩⟩,
        fun hn => absurd rfl hn⟩
  | succ n ih =>
      have hrest : MapsRest K L D (c / 4096 % 2 ^ 20) cur n
          (memoryRegionMapExact (i686Cpu K L) c flags n
            (wrap32 (cur + (i686Cpu K L).physmemPageSize))
            (wrap32 (p + (i686Cpu K L).physmemPageSize))) := fun hroles =>
        Prog.wp_mono (ih hroles (wrap32_lt _)) (fun _ _ h => h.1) fun _ _ => trivial
      rw [memoryRegionMapExact]
      refine Prog.wp_mono ((h₀.paused hcur).frame_wp h₀ hc hrest p) ?_ fun _ _ => trivial
      rintro _ s ⟨hmapped, htakes⟩
      exact ⟨hmapped, fun _ => htakes⟩

/-- **The loop over fresh frames.** -/
lemma memoryRegionMapAllocate_mapped {p : Option ℕ} (h₀ : Roles K L D t)
    (hc : c / 4096 % 2 ^ 20 ∈ D) (hcur : cur < 2 ^ 32) :
    Prog.wp (memoryRegionMapAllocate (i686Cpu K L) c flags n cur p)
      (fun _ s => PagesMapped K L D (c / 4096 % 2 ^ 20) cur n t s ∧
        (n ≠ 0 → p = none → reservedPages K t.mem ⊂ reservedPages K s.mem))
      (fun _ => True) t := by
  induction n generalizing cur p t with
  | zero =>
      rw [memoryRegionMapAllocate, Prog.wp_pure]
      exact ⟨⟨h₀.linked _ hc, Finset.Subset.refl _, fun _ => ⟨h₀, Keeps.refl t, rfl⟩⟩,
        fun hn => absurd rfl hn⟩
  | succ n ih =>
      have hrest : ∀ address, MapsRest K L D (c / 4096 % 2 ^ 20) cur n
          (memoryRegionMapAllocate (i686Cpu K L) c flags n
            (wrap32 (cur + (i686Cpu K L).physmemPageSize)) (some address)) := fun _ _ hroles =>
        Prog.wp_mono (ih hroles (wrap32_lt _)) (fun _ _ h => h.1) fun _ _ => trivial
      rw [memoryRegionMapAllocate, Prog.wp_bind, callVirtmem, Prog.wp_zoom]
      refine Prog.wp_mono ((h₀.paused hcur).getPage_wp h₀ hc) ?_ fun _ _ => trivial
      rintro r s₁ ⟨hmid, htakes⟩
      cases r with
      | ok paddr =>
          have hfirst := htakes ⟨paddr, rfl⟩
          cases paddr with
          | zero =>
              refine Prog.wp_mono (hmid.allocate_wp h₀ hc hrest) ?_ fun _ _ => trivial
              rintro _ s ⟨hmapped, hkept⟩
              exact ⟨hmapped, fun _ _ => hfirst.trans_subset hkept⟩
          | succ address =>
              refine Prog.wp_mono (hmid.flags_wp h₀ hc (hrest _)) ?_ fun _ _ => trivial
              rintro _ s ⟨hmapped, hkept⟩
              exact ⟨hmapped, fun _ _ => hfirst.trans hkept⟩
      | error e =>
          -- the variable is as it was, and on the first page it was not set
          cases p with
          | none => exact (Prog.wp_fault _).mpr trivial
          | some address =>
              have hlater : some address ≠ none := Option.some_ne_none _
              cases address with
              | zero =>
                  refine Prog.wp_mono (hmid.allocate_wp h₀ hc hrest) ?_ fun _ _ => trivial
                  rintro _ s ⟨hmapped, -⟩
                  exact ⟨hmapped, fun _ hp => absurd hp hlater⟩
              | succ address =>
                  refine Prog.wp_mono (hmid.flags_wp h₀ hc (hrest _)) ?_ fun _ _ => trivial
                  rintro _ s ⟨hmapped, -⟩
                  exact ⟨hmapped, fun _ hp => absurd hp hlater⟩

end Loops

end Paused

/-! ## Mapping a region -/

section Regions

variable {D : Set ℕ} {t s : Machine ρ} {c d : ℕ}

/-- The kernel pages in `U` are translated as before in all address spaces. -/
def KernelUndisturbed (t s : Machine ρ) (live : List ℕ) (U : Set ℕ) : Prop :=
  ∀ b ∈ live, ∀ v ∈ U, highstart ≤ v → v < 2 ^ 32 →
    mmuTranslate s.mem (directoryOf t b) v = mmuTranslate t.mem (directoryOf t b) v

/-- A kernel page that was taken is mapped now. -/
lemma translation_of_reserved (ht : LinksKernel K t.mem d) (hs : LinksKernel K s.mem d)
    (h : reservedPages K t.mem ⊂ reservedPages K s.mem) : ∃ v, highstart ≤ v ∧ v < 2 ^ 32 ∧
      mmuTranslate s.mem d v ≠ mmuTranslate t.mem d v := by
  rcases Finset.exists_of_ssubset h with ⟨i, hafter, hbefore⟩
  rw [mem_reservedPages] at hafter
  have h0 : Entry.present.get (kernelFlatpt K t.mem i) = 0 :=
    (present_cases _).resolve_right fun h1 => hbefore (mem_reservedPages.mpr ⟨hafter.1, h1⟩)
  have hlt := window_lt hafter.1
  refine ⟨window i + 0, ?_, by omega, fun hsame => ?_⟩
  · unfold window
    omega
  · rw [mmuTranslate_kernel hs hafter.1 (by norm_num), mmuTranslate_kernel ht hafter.1 (by norm_num),
      h0, hafter.2, if_pos rfl, if_neg zero_ne_one] at hsame
    exact absurd hsame (Option.some_ne_none _)

/-- **Mapping a region** in an address space. -/
lemma commonMemoryRegionMap_mapped (h₀ : Roles K L D t) {as : AddressSpace} {mr : MemoryRegion}
    {paddr : ℕ} {res : Except AddressSpaceErr Unit} (hc : as.pd / 4096 % 2 ^ 20 ∈ D)
    (hstart : mr.start < 2 ^ 32)
    (hrun : (commonMemoryRegionMap (i686Cpu K L) as mr paddr).run t = .ok (res, s)) :
    mr.length % 4096 = 0 ∧ (mr.length = 0 → s = t) ∧
      PagesMapped K L D (as.pd / 4096 % 2 ^ 20) mr.start (mr.length / 4096) t s ∧
      (mr.length ≠ 0 → reservedPages K t.mem ⊂ reservedPages K s.mem) := by
  rcases commonMemoryRegionMap_aligned i686Cpu_pageSize hrun with ⟨hs, hl, hp⟩
  rw [commonMemoryRegionMap_of_aligned i686Cpu_pageSize hs hl hp] at hrun
  have hnone : mr.length = 0 → mr.length / 4096 = 0 := fun h0 => by rw [h0]
  have hsome : mr.length ≠ 0 → mr.length / 4096 ≠ 0 := fun hne => by omega
  by_cases hzero : paddr = 0
  · rw [if_pos hzero] at hrun
    refine ⟨hl, fun h0 => ?_, ?_⟩
    · rw [hnone h0, memoryRegionMapAllocate, Prog.run_pure] at hrun
      exact (Prod.mk.inj (Except.ok.inj hrun)).2.symm
    · have hmapped := Prog.wp_run (memoryRegionMapAllocate_mapped h₀ hc hstart) hrun
      exact ⟨hmapped.1, fun hne => hmapped.2 (hsome hne) rfl⟩
  · rw [if_neg hzero] at hrun
    refine ⟨hl, fun h0 => ?_, ?_⟩
    · rw [hnone h0, memoryRegionMapExact, Prog.run_pure] at hrun
      exact (Prod.mk.inj (Except.ok.inj hrun)).2.symm
    · have hmapped := Prog.wp_run (memoryRegionMapExact_mapped h₀ hc hstart) hrun
      exact ⟨hmapped.1, fun hne => hmapped.2 (hsome hne)⟩

/-- Which requests make a region without pages. -/
lemma regionLength_eq_zero {len : ℕ} (h : len < 2 ^ 32) :
    regionLength len = 0 ↔ len = 0 ∨ 2 ^ 32 ≤ len + 4095 := by
  unfold regionLength
  omega

/-- **When mapping an accepted region leaves the kernel half alone.**  In every run: when the region
has no pages, and then only.  What happens to the kernel pages that are mapped is another matter: a
region in the user half leaves them alone. -/
theorem region_disturbs_kernel_iff {r : SpaceRun ρ} {as mr start len paddr : ℕ} {m m' : AsMem}
    {res : Except AddressSpaceErr Unit} (hr : SpaceReachable K L r) (has : as ∈ r.live)
    (hpd : m.as.pd = (r.k.env.as as).pd) (hstart : start < 2 ^ 32) (hlen : len < 2 ^ 32)
    (hinit : (commonAddressSpaceInitRegion (i686Cpu K L) mr start len).run m = .ok (.ok (), m'))
    (writable executable : Bool)
    (hmap : (commonMemoryRegionMap (i686Cpu K L) m'.as
      { m'.region mr with writable := writable, executable := executable } paddr).run r.k.env
        = .ok (res, s)) :
    (KernelUndisturbed r.k.env s r.live Set.univ ↔ len = 0 ∨ 2 ^ 32 ≤ len + 4095) ∧
    (regionStart start + regionLength len ≤ highstart → KernelUndisturbed r.k.env s r.live
      { v | mmuTranslate r.k.env.mem K.kernelPd v ≠ none }) := by
  rcases hr.inv with ⟨pg, h⟩
  rcases initRegion_accepted _ i686Cpu_pageSize hstart hinit with ⟨hpd', hregion⟩
  rw [hregion] at hmap
  have hd : directoryOf r.k.env as ∈ directories r.k.env r.live := ⟨as, has, rfl⟩
  have hdir : m'.as.pd / 4096 % 2 ^ 20 = directoryOf r.k.env as := by rw [hpd', hpd, directoryOf]
  rcases commonMemoryRegionMap_mapped h.roles (hdir ▸ hd) (regionStart_lt hstart) hmap with
    ⟨hl, hnone, hmapped, htakes⟩
  simp only [hdir] at hl hnone hmapped htakes
  refine ⟨?_, fun hend b hb v hv hlo hhi => ?_⟩
  · rw [← regionLength_eq_zero hlen]
    constructor
    · intro hsame
      by_contra hne
      rcases translation_of_reserved (h.roles.linked _ hd) hmapped.links (htakes hne) with
        ⟨v, hlo, hhi, hdiffers⟩
      exact hdiffers (hsame as has v (Set.mem_univ v) hlo hhi)
    · intro h0
      rw [hnone h0]
      exact fun _ _ _ _ _ _ => rfl
  · have hstep := hmapped.user (by omega)
    exact hstep.translation_kernel h.roles ⟨b, hb, rfl⟩ hlo hhi hv

end Regions

/-! ## On the small machine -/

/-- The regions of an address space that has none yet. -/
def regionsOf (pd : ℕ) : AsMem := { emptySpace with as := ⟨pd, []⟩ }

/-- Its first region is accepted. -/
lemma regionsOf_init (pd : ℕ) {start : ℕ} (hpos : start ≠ 0) (hstart : start < 2 ^ 32) (len : ℕ) :
    ∃ m, (commonAddressSpaceInitRegion (i686Cpu K L) 1 start len).run (regionsOf pd)
      = .ok (.ok (), m) :=
  ⟨_, (initRegion_run _ i686Cpu_pageSize one_ne_zero hpos hstart len _).trans (if_pos rfl)⟩

/-- **Mapping a region of one page** to a frame that is given. -/
lemma Roles.mapRegionPage {D : Set ℕ} {t : Machine ρ} (h : Roles K L D t) (as : AddressSpace)
    (mr : MemoryRegion) (paddr : ℕ) (hd : as.pd / 4096 % 2 ^ 20 ∈ D) (hlo : 4096 ≤ mr.start)
    (hv : mr.start < highstart)
    (havail : AllocationsSucceed K L t (as.pd / 4096 % 2 ^ 20) mr.start)
    (hs : mr.start % 4096 = 0) (hl : mr.length = 4096) (hp : paddr % 4096 = 0)
    (hpos : paddr ≠ 0) :
    ∃ s, (commonMemoryRegionMap (i686Cpu K L) as mr paddr).run t = .ok (.ok (), s) := by
  rcases h.pageMapped hd hlo hv havail paddr (regionPageFlags mr) with ⟨s₁, s₂, s₃, hpage⟩
  refine ⟨s₂, ?_⟩
  rw [commonMemoryRegionMap_of_aligned i686Cpu_pageSize hs (by rw [hl]) (Or.inr hp),
    if_neg hpos, hl, memoryRegionMapExact]
  refine (Prog.run_bind_ok (callVirtmem_run hpage.mapPage)).trans ?_
  exact (Prog.run_bind_ok (callVirtmem_run hpage.setFlags)).trans rfl

/-- A region of one page at `0x1000`. -/
theorem region_disturbs_kernel_page : ∃ as k m s,
    (addressSpaceAlloc smallImage).run smallSpaces.k = .ok (.ok as, k) ∧
    (commonMemoryRegionMap (i686Cpu smallImage countingLocalmem) m
      ⟨0x1000, 0x1000, true, false⟩ 0x5000).run k.env = .ok (.ok (), s) ∧
    ¬KernelUndisturbed k.env s [as] Set.univ := by
  rcases smallSpaces_returns with ⟨as, k, hrun⟩
  have hr := smallSpaces_reachable.tail (.spaceAlloc hrun)
  have hmem : as ∈ [as] := List.mem_singleton_self as
  rcases SpaceReachable.inv hr with ⟨pg, h⟩
  have hsmall : 0x1000 < 2 ^ 32 := by norm_num
  rcases regionsOf_init (K := smallImage) (L := countingLocalmem) (k.env.as as).pd
    (by norm_num) hsmall 0x1000 with ⟨m, hinit⟩
  rcases initRegion_accepted _ i686Cpu_pageSize (by norm_num) hinit with ⟨hpd, hregion⟩
  -- where the region is
  have hstart : (m.region 1).start = 0x1000 := by rw [hregion]; rfl
  have hlength : (m.region 1).length = 0x1000 := by rw [hregion]; rfl
  have hdir : m.as.pd / 4096 % 2 ^ 20 = directoryOf k.env as := by rw [hpd]; rfl
  rcases h.roles.mapRegionPage m.as { m.region 1 with writable := true, executable := false } 0x5000
    (by rw [hdir]; exact ⟨as, hmem, rfl⟩) (by rw [hstart]) (by rw [hstart]; norm_num [highstart])
    (by rw [hdir]; exact smallSpace_available hrun) (by rw [hstart]) hlength (by norm_num)
    (by norm_num) with ⟨s, hmap⟩
  have hiff := (region_disturbs_kernel_iff hr hmem rfl hsmall hsmall hinit true false hmap).1
  simp only [hstart, hlength] at hmap
  exact ⟨as, k, m.as, s, hrun, hmap, fun hsame => absurd (hiff.mp hsame) (by norm_num)⟩

end Akaris
