import Akaris.Virtmem.Windows

/-!
# Walking page tables

What `i686_pagewalk` does to a machine, apart from the windows it opens.  It does nothing when the
page directory entry is present, and otherwise it makes a page table in a frame of `localmem`, or
fails to and goes on with whatever the entry points to.  `PdeStep` lists the three cases.  The
window the walk leaves behind shows the page table, but for the first page of the address space:
there `ctx->pagestart` is right from the start, and the window still shows what it showed when it
was taken.
-/

namespace Akaris

variable {ρ : Type} {K : KernelImage} {L : Localmem ρ}

-- the rules are all that is used of it: computing it would run the program
attribute [local irreducible] Prog.wp

/-! ## Beginning a walk -/

/-- A walk through the page directory in frame `d` of the machine `t` is set up in the windows `i`
and `j`. -/
structure WalkReady (K : KernelImage) (t : Machine ρ) (d : ℕ) (ctx : I686PagewalkContext)
    (i j : ℕ) (s : Machine ρ) : Prop where
  ctx : ctx = ⟨0, some (window i), some (window j)⟩
  ne : i ≠ j
  opens : Opens K {j, i} t s
  shows : Shows K s.mem j d
  stale : Entry.physAddr.get (kernelFlatpt K s.mem i) = Entry.physAddr.get (kernelFlatpt K t.mem i)

/-- No walk is set up, since the kernel pages ran out. -/
structure WalkFailed (K : KernelImage) (t : Machine ρ) (ctx : I686PagewalkContext)
    (W : Finset ℕ) (s : Machine ρ) : Prop where
  pd : ctx.pd = none
  few : W.card < 2
  full : freeWindows K t.mem = W.card
  opens : Opens K W t s
  same : W = ∅ → s = t

section Walk

variable {t s : Machine ρ} {W : Finset ℕ} {d i j k v : ℕ} {ctx : I686PagewalkContext}

/-- **Beginning a walk** takes two windows, or the kernel pages run out. -/
lemma i686PagewalkInit_wp (t : Machine ρ) (c : ℕ) :
    Prog.wp (i686PagewalkInit K c)
      (fun r s =>
        (r.1 = 0 ∧ ∃ i j, WalkReady K t (c / 4096 % 2 ^ 20) r.2 i j s) ∨
        (r.1 = -1 ∧ ∃ W, WalkFailed K t r.2 W s))
      (fun _ => False) t := by
  rw [i686PagewalkInit, Prog.wp_bind]
  refine Prog.wp_mono (i686KernelAlloc_wp (Opens.refl t)) ?_ fun _ he => he
  rintro _ s₁ (⟨i, rfl, hi, h₁, hstale, -⟩ | ⟨rfl, hfull, rfl⟩)
  · rw [Prog.wp_bind]
    refine Prog.wp_mono (i686KernelAlloc_wp h₁) ?_ fun _ he => he
    rintro r s₂ (⟨j, hr, hj, h₂, -, hkept⟩ | ⟨hr, hfull, rfl⟩)
    · rw [hr]
      have hij : i ≠ j := by
        rintro rfl
        exact hj (Finset.mem_insert_self i ∅)
      refine (Prog.wp_bind _ _).mpr (Prog.wp_mono
        (i686KernelMapVirtToPhys_wp h₂ (Finset.mem_insert_self j _) c) ?_ fun _ he => he)
      rintro _ s₃ ⟨-, h₃, hshows, hkept'⟩
      refine (Prog.wp_pure _).mpr (Or.inl ⟨rfl, i, j, rfl, hij, h₃, hshows, ?_⟩)
      rw [hkept' i hij, hkept i hij, hstale]
    · rw [hr]
      refine (Prog.wp_bind _ _).mpr ((Prog.wp_pure _).mpr
        ((Prog.wp_pure _).mpr (Or.inr ⟨rfl, insert i ∅, rfl, ?_, hfull, h₁, fun h => ?_⟩)))
      · rw [Finset.card_insert_of_notMem hi]
        exact Nat.one_lt_two
      · exact absurd h (Finset.insert_ne_empty i ∅)
  · exact (Prog.wp_pure _).mpr
      (Or.inr ⟨rfl, ∅, rfl, Nat.two_pos, hfull, Opens.refl _, fun _ => rfl⟩)

/-! ## The page directory entry -/

/-- What a walk does to the page directory in frame `d`, for its entry `k`: the frame it goes on
with, and the number of windows it opens. -/
inductive PdeStep (K : KernelImage) (L : Localmem ρ) (t : Machine ρ) (d k : ℕ) :
    Machine ρ → ℕ → ℕ → Prop
  | found : Entry.present.get (t.mem d k) = 1 →
      PdeStep K L t d k t (Entry.physAddr.get (t.mem d k)) 0
  | created {f : ℕ} {l : ρ} : Entry.present.get (t.mem d k) = 0 → f ∈ L.free t.localmem →
      L.pageAlloc t.localmem = (.ok (f * 4096), l) →
      PdeStep K L t d k
        { t with mem := (zeroFrame t.mem f).write d k (userPde f), localmem := l } f 1
  | failed : Entry.present.get (t.mem d k) = 0 →
      (∃ e, (L.pageAlloc t.localmem).1 = .error e) ∨ freeWindows K t.mem = 2 →
      PdeStep K L t d k { t with localmem := (L.pageAlloc t.localmem).2 }
        (Entry.physAddr.get (t.mem d k)) 0

/-- The frames that `localmem` may still hand out can be wiped. -/
def CanWipe (K : KernelImage) (L : Localmem ρ) (t : Machine ρ) : Prop :=
  ∀ f ∈ L.free t.localmem, PlainFrame K t.cr3 f

lemma localmemPageAlloc_run (s : Machine ρ) : (localmemPageAlloc L).run s =
    .ok ((L.pageAlloc s.localmem).1, { s with localmem := (L.pageAlloc s.localmem).2 }) := rfl

lemma Running.zeroFrame (h : Running K s) {f : ℕ} (hf : PlainFrame K s.cr3 f) :
    Running K { s with mem := zeroFrame s.mem f } :=
  h.congr fun _ => zeroFrame_of_ne (Ne.symm hf.notRunning)

lemma kernelFlatpt_zeroFrame {mem : PhysMem} {f : ℕ} (hi : i < 2 ^ 18) (hf : ¬K.HoldsTable f) :
    kernelFlatpt K (zeroFrame mem f) i = kernelFlatpt K mem i := by
  refine zeroFrame_of_ne ?_
  rintro rfl
  exact hf (holdsTable_of_lt hi)

/-- **Making a page table**: a frame is wiped and named by the entry, or there is no frame or no
kernel page for it.  The kernel pages that are present are left alone. -/
lemma i686InitializePde_opens (h : Opens K W t s) (hrun : Running K t)
    (hshows : Shows K s.mem j d) (hd : ¬K.HoldsTable d) (hk : k < 1024) (hwipe : CanWipe K L t) :
    Prog.wp (i686InitializePde K L (window j + 4 * k))
      (fun _ s' =>
        ((∃ f l m, f ∈ L.free t.localmem ∧ L.pageAlloc t.localmem = (.ok (f * 4096), l) ∧ m ∉ W ∧
            Opens K (insert m W)
              { t with mem := (zeroFrame t.mem f).write d k (userPde f), localmem := l } s') ∨
          (((∃ e, (L.pageAlloc t.localmem).1 = .error e) ∨ freeWindows K t.mem = W.card) ∧
            Opens K W { t with localmem := (L.pageAlloc t.localmem).2 } s')) ∧
        ∀ n < 2 ^ 18, Entry.present.get (kernelFlatpt K s.mem n) = 1 →
          kernelFlatpt K s'.mem n = kernelFlatpt K s.mem n)
      (fun _ => False) s := by
  have hlocal := h.localmem
  rw [i686InitializePde, Prog.wp_bind, Prog.wp_of_run (localmemPageAlloc_run s), hlocal]
  have h₁ := h.setLocalmem (L.pageAlloc t.localmem).2
  cases hr : (L.pageAlloc t.localmem).1 with
  | error e =>
      exact (Prog.wp_pure _).mpr ⟨Or.inr ⟨Or.inl ⟨e, rfl⟩, h₁⟩, fun _ _ _ => rfl⟩
  | ok address =>
      rcases L.pageAlloc_ok (Prod.ext hr rfl) with ⟨f, hf, rfl, -⟩
      have hplain := hwipe f hf
      have hrange := L.free_range _ f hf
      refine (Prog.wp_bind _ _).mpr (Prog.wp_mono (i686KernelAlloc_wp h₁) ?_ fun _ he => he)
      rintro _ s₂ (⟨m, rfl, hm, h₂, -, hkept₂⟩ | ⟨rfl, hfull, rfl⟩)
      · refine (Prog.wp_bind _ _).mpr (Prog.wp_mono
          (i686KernelMapVirtToPhys_wp h₂ (Finset.mem_insert_self m W) _) ?_ fun _ he => he)
        rintro _ s₃ ⟨-, h₃, hshows₃, hkept₃⟩
        rw [physAddr_frame hrange.2] at hshows₃
        -- the new table is wiped through its window, and the entry is set through the old one
        have hrun₃ : Running K s₃ := h₃.running ⟨hrun.linked, hrun.apart⟩
        have hplain₃ : PlainFrame K s₃.cr3 f := by rwa [h₃.cr3]
        rw [Prog.wp_bind, Prog.wp_of_run (memset_page_run hrun₃ hshows₃ hplain₃)]
        have hkept : ∀ n < 2 ^ 18, Entry.present.get (kernelFlatpt K s.mem n) = 1 →
            kernelFlatpt K s₃.mem n = kernelFlatpt K s.mem n := by
          intro n hn h1
          have hne : n ≠ m := by
            -- the window that was taken was not present
            rintro rfl
            have hfresh := (h₂.mem.fresh n (Finset.mem_insert_self n W)).2
            have hother := h.mem.other n hn hm
            rw [hother] at h1
            have hfresh' : Entry.present.get (kernelFlatpt K t.mem n) = 0 := hfresh
            omega
          rw [hkept₃ n hne, hkept₂ n hne]
        have hshows₄ : Shows K (zeroFrame s₃.mem f) j d := by
          refine hshows.congr ?_
          rw [kernelFlatpt_zeroFrame hshows.lt hplain.notTable, hkept j hshows.lt hshows.present]
        rw [Prog.wp_bind, i686KernelFree, Prog.wp_pure, Prog.wp_bind,
          Prog.wp_of_run (modifyWord_run (hrun₃.zeroFrame hplain₃) hshows₄ hk _), Prog.wp_pure,
          i686SetPde_eq]
        refine ⟨Or.inl ⟨f, _, m, hf, Prod.ext hr rfl, hm,
          (h₃.zeroFrame hplain.notTable).write hd⟩, fun n hn h1 => ?_⟩
        rw [kernelFlatpt_write_outside hn hd, kernelFlatpt_zeroFrame hn hplain.notTable,
          hkept n hn h1]
      · exact (Prog.wp_pure _).mpr ⟨Or.inr ⟨Or.inr hfull, h₁⟩, fun _ _ _ => rfl⟩

/-- Making a page table, as a step of a walk. -/
lemma i686InitializePde_wp (h : Opens K W t s) (hW : W.card = 2) (hrun : Running K t)
    (hshows : Shows K s.mem j d) (hd : ¬K.HoldsTable d) (hk : k < 1024)
    (h0 : Entry.present.get (t.mem d k) = 0) (hwipe : CanWipe K L t) :
    Prog.wp (i686InitializePde K L (window j + 4 * k))
      (fun _ s' => ∃ W' t' f n, PdeStep K L t d k t' f n ∧ W ⊆ W' ∧ W'.card = 2 + n ∧
        Opens K W' t' s' ∧ ∀ i ∈ W, kernelFlatpt K s'.mem i = kernelFlatpt K s.mem i)
      (fun _ => False) s := by
  refine Prog.wp_mono (i686InitializePde_opens h hrun hshows hd hk hwipe) ?_ fun _ he => he
  rintro _ s' ⟨hcases, hkept⟩
  have hsame : ∀ i ∈ W, kernelFlatpt K s'.mem i = kernelFlatpt K s.mem i :=
    fun i hi => hkept i (h.mem.fresh i hi).1 (h.mem.opened i hi)
  rcases hcases with ⟨f, l, m, hf, hr, hm, hopens⟩ | ⟨hfail, hopens⟩
  · refine ⟨insert m W, _, f, 1, .created h0 hf hr, Finset.subset_insert m W, ?_, hopens, hsame⟩
    rw [Finset.card_insert_of_notMem hm, hW]
  · rw [hW] at hfail
    exact ⟨W, _, _, 0, .failed h0 hfail, Finset.Subset.refl W, hW, hopens, hsame⟩

/-! ## The walk -/

/-- **A walk** for the address `v` through the page directory in frame `d` of the machine `t`: it
left the machine `t'` with the windows `W`, and the entry is at `l`, in a window that shows the
frame `f`. -/
structure Walked (K : KernelImage) (L : Localmem ρ) (t : Machine ρ) (d v : ℕ) (W : Finset ℕ)
    (t' : Machine ρ) (f : ℕ) (r : I686PagewalkContext × ℕ) (s : Machine ρ) : Prop where
  step : ∃ f' n, PdeStep K L t d (v / 2 ^ 22) t' f' n ∧ W.card = 2 + n ∧
    (v / 2 ^ 12 ≠ 0 → f = f')
  opens : Opens K W t' s
  entry : ∃ i ∈ W, r.1.pt = some (window i) ∧ r.2 = window i + 4 * (v / 2 ^ 12 % 2 ^ 10) ∧
    Shows K s.mem i f ∧
    (v / 2 ^ 12 = 0 → Entry.present.get (kernelFlatpt K t.mem i) = 0 ∧
      f = Entry.physAddr.get (kernelFlatpt K t.mem i))
  pd : r.1.pd ≠ none

lemma PdeStep.cr3 {t' : Machine ρ} {f n : ℕ} (h : PdeStep K L t d k t' f n) : t'.cr3 = t.cr3 := by
  cases h <;> rfl

lemma PdeStep.as {t' : Machine ρ} {f n : ℕ} (h : PdeStep K L t d k t' f n) : t'.as = t.as := by
  cases h <;> rfl

/-- The entry is what the walk goes on with. -/
lemma PdeStep.frame {t' : Machine ρ} {f n : ℕ} (h : PdeStep K L t d k t' f n) :
    Entry.physAddr.get (t'.mem d k) = f := by
  cases h with
  | found _ => rfl
  | created h0 hf hr =>
      show Entry.physAddr.get ((zeroFrame t.mem f).write d k (userPde f) d k) = f
      rw [write_self, physAddr_userPde (L.free_range _ f hf).2]
  | failed _ _ => rfl

/-- The other frames are not touched. -/
lemma PdeStep.outside {t' : Machine ρ} {f n f' w : ℕ} (h : PdeStep K L t d k t' f n) (hf : f' ≠ f)
    (hd : f' ≠ d) : t'.mem f' w = t.mem f' w := by
  cases h with
  | found _ => rfl
  | created _ _ _ =>
      show (zeroFrame t.mem f).write d k (userPde f) f' w = _
      rw [write_of_frame_ne hd, zeroFrame_of_ne hf]
  | failed _ _ => rfl

/-- The running page directory still links the kernel. -/
lemma PdeStep.running {t' : Machine ρ} {f n : ℕ} (h : PdeStep K L t d k t' f n) (hrun : Running K t)
    (hwipe : Entry.present.get (t.mem d k) = 0 → CanWipe K L t) : Running K t' := by
  cases h with
  | found _ => exact hrun
  | failed _ _ => exact ⟨hrun.linked, hrun.apart⟩
  | created h0 hf _ =>
      refine ⟨fun m hm => ?_, hrun.apart⟩
      show (zeroFrame t.mem f).write d k (userPde f) (t.cr3 / 4096) (768 + m) = kernelPde K m
      have hsame : zeroFrame t.mem f (t.cr3 / 4096) (768 + m) = kernelPde K m := by
        rw [zeroFrame_of_ne (Ne.symm (hwipe h0 f hf).notRunning), hrun.linked m hm]
      by_cases hc : t.cr3 / 4096 = d ∧ 768 + m = k
      · -- an entry of the kernel half is present
        rw [← hc.1, ← hc.2, hrun.linked m hm, present_kernelPde] at h0
        exact absurd h0 (by norm_num)
      · rw [PhysMem.write, if_neg hc, hsame]

/-- The page table entry that the walk is at, `pagestart` of a `struct i686_pagewalk_context`. -/
lemma pagestart_eq_zero_iff (hv : v < 2 ^ 32) :
    wrap32 (v / 2 ^ 22 * (pgSize * 1024) + v / 2 ^ 12 % 2 ^ 10) = 0 ↔ v / 2 ^ 12 = 0 := by
  unfold wrap32 pgSize
  omega

/-- The second half of the walk, once there is a page directory entry: the window `i` is pointed to
the page table, unless the walk is at its start. -/
lemma showTable_wp {t' : Machine ρ} {f n : ℕ} (hstep : PdeStep K L t d (v / 2 ^ 22) t' f n)
    (hW : W.card = 2 + n) (hopens : Opens K W t' s) (hrun : Running K t') (hd : ¬K.HoldsTable d)
    (hv : v < 2 ^ 32) (hi : i ∈ W) (hshows : Shows K s.mem j d)
    (hfresh : Entry.present.get (kernelFlatpt K t.mem i) = 0)
    (hstale : Entry.physAddr.get (kernelFlatpt K s.mem i)
      = Entry.physAddr.get (kernelFlatpt K t.mem i)) :
    Prog.wp
      (if wrap32 (v / 2 ^ 22 * (pgSize * 1024) + v / 2 ^ 12 % 2 ^ 10) ≠ 0 then do
        let pde ← loadWord (window j + 4 * (v / 2 ^ 22))
        let _ ← i686KernelMapVirtToPhys K (wrap32 (Entry.physAddr.get pde * pgSize)) (window i)
        pure (⟨wrap32 (v / 2 ^ 22 * (pgSize * 1024) + v / 2 ^ 12 % 2 ^ 10), some (window i),
          some (window j)⟩, window i + 4 * (v / 2 ^ 12 % 2 ^ 10))
      else
        pure (⟨0, some (window i), some (window j)⟩, window i + 4 * (v / 2 ^ 12 % 2 ^ 10)))
      (fun r s' => ∃ W t' f, Walked K L t d v W t' f r s')
      (fun _ => False) s := by
  have hk : v / 2 ^ 22 < 1024 := by omega
  have hi18 := hopens.mem.fresh i hi
  by_cases hzero : v / 2 ^ 12 = 0
  · rw [if_neg (not_not.mpr ((pagestart_eq_zero_iff hv).mpr hzero)), Prog.wp_pure]
    refine ⟨W, t', _, ⟨f, n, hstep, hW, fun h => absurd hzero h⟩, hopens,
      ⟨i, hi, rfl, rfl, ⟨hi18.1, hopens.mem.opened i hi, rfl⟩, fun _ => ⟨hfresh, hstale⟩⟩, ?_⟩
    exact Option.some_ne_none _
  · rw [if_pos (fun h => hzero ((pagestart_eq_zero_iff hv).mp h)), Prog.wp_bind,
      Prog.wp_of_run (loadWord_run (hopens.running hrun) hshows hk), Prog.wp_bind,
      hopens.outside hd, hstep.frame]
    refine Prog.wp_mono (i686KernelMapVirtToPhys_wp hopens hi _) ?_ fun _ he => he
    rintro _ s' ⟨-, hopens', hshows', -⟩
    have hf : f < 2 ^ 20 := by
      rw [← hstep.frame]
      exact Field.get_lt _ _
    have hframe : wrap32 (f * pgSize) / 4096 % 2 ^ 20 = f := by
      unfold wrap32 pgSize
      omega
    rw [hframe] at hshows'
    rw [Prog.wp_pure]
    refine ⟨W, t', f, ⟨f, n, hstep, hW, fun _ => rfl⟩, hopens',
      ⟨i, hi, rfl, rfl, hshows', fun h => absurd h hzero⟩, ?_⟩
    exact Option.some_ne_none _

/-- **The walk** finds or makes the page table, and shows it in its window. -/
lemma i686Pagewalk_wp (h : WalkReady K t d ctx i j s) (hrun : Running K t) (hd : ¬K.HoldsTable d)
    (hv : v < 2 ^ 32) (hwipe : Entry.present.get (t.mem d (v / 2 ^ 22)) = 0 → CanWipe K L t) :
    Prog.wp (i686Pagewalk K L ctx v)
      (fun r s' => ∃ W t' f, Walked K L t d v W t' f r s')
      (fun _ => False) s := by
  have hk : v / (pgSize * 1024) = v / 2 ^ 22 := rfl
  have hptindex : v % (pgSize * 1024) / pgSize = v / 2 ^ 12 % 2 ^ 10 := by
    rw [pgSize]
    omega
  have hk' : v / 2 ^ 22 < 1024 := by omega
  have hrun' := h.opens.running hrun
  rcases h with ⟨rfl, hij, hopens, hshows, hstale⟩
  have hcard : ({j, i} : Finset ℕ).card = 2 := Finset.card_pair hij.symm
  have hj : j ∈ ({j, i} : Finset ℕ) := Finset.mem_insert_self j _
  have hi : i ∈ ({j, i} : Finset ℕ) := Finset.mem_insert_of_mem (Finset.mem_singleton_self i)
  have hfresh := (hopens.mem.fresh i hi).2
  rw [i686Pagewalk]
  simp only [hk, hptindex, readVar, pure_bind]
  rw [Prog.wp_bind, Prog.wp_of_run (loadWord_run hrun' hshows hk'), hopens.outside hd]
  rcases present_cases (t.mem d (v / 2 ^ 22)) with h0 | h1
  · rw [if_pos h0, Prog.wp_bind]
    refine Prog.wp_mono (i686InitializePde_wp hopens hcard hrun hshows hd hk' h0 (hwipe h0)) ?_
      fun _ he => he
    rintro _ s₁ ⟨W, t', f, n, hstep, hsub, hW, hopens₁, hkept⟩
    refine showTable_wp hstep hW hopens₁ (hstep.running hrun hwipe) hd hv (hsub hi)
      (hshows.congr (hkept j hj)) hfresh ?_
    rw [hkept i hi, hstale]
  · rw [if_neg (by rw [h1]; exact one_ne_zero)]
    exact showTable_wp (.found h1) hcard hopens hrun hd hv hi hshows hfresh hstale

/-! ## User pages -/

/-- The page table entry of `v`, in the frame `f`, is changed by `g`. -/
def Machine.changeEntry (s : Machine ρ) (f v : ℕ) (g : Word → Word) : Machine ρ :=
  { s with mem := s.mem.write f (v / 2 ^ 12 % 2 ^ 10) (g (s.mem f (v / 2 ^ 12 % 2 ^ 10))) }

/-- How `user_set_page_flags` changes an entry. -/
def flagsEntry (flags : ℕ) (x : Word) : Word :=
  Entry.present.set (Entry.user.set (Entry.writable.set x (bittestl flags virtmemPageWritable))
    (bittestl flags virtmemPageReadable)) 1

variable {c : ℕ} {t' : Machine ρ} {f : ℕ} {r : I686PagewalkContext × ℕ}

lemma Walked.running (h : Walked K L t d v W t' f r s) (hrun : Running K t)
    (hwipe : Entry.present.get (t.mem d (v / 2 ^ 22)) = 0 → CanWipe K L t) : Running K s := by
  rcases h.step with ⟨f', n, hstep, -, -⟩
  exact h.opens.running (hstep.running hrun hwipe)

lemma Walked.load (h : Walked K L t d v W t' f r s) (hrun : Running K t)
    (hwipe : Entry.present.get (t.mem d (v / 2 ^ 22)) = 0 → CanWipe K L t) :
    (loadWord r.2).run s = .ok (s.mem f (v / 2 ^ 12 % 2 ^ 10), s) := by
  rcases h.entry with ⟨i, -, -, hl, hshows, -⟩
  rw [hl]
  exact loadWord_run (h.running hrun hwipe) hshows (by omega)

lemma Walked.modify (h : Walked K L t d v W t' f r s) (hrun : Running K t)
    (hwipe : Entry.present.get (t.mem d (v / 2 ^ 22)) = 0 → CanWipe K L t)
    (g : Word → Word) : (modifyWord r.2 g).run s = .ok ((), s.changeEntry f v g) := by
  rcases h.entry with ⟨i, -, -, hl, hshows, -⟩
  rw [hl]
  exact modifyWord_run (h.running hrun hwipe) hshows (by omega) g

/-- A walk that found its page table only opened two windows. -/
lemma Walked.found (h : Walked K L t d v W t' f r s)
    (h1 : Entry.present.get (t.mem d (v / 2 ^ 22)) = 1) :
    t' = t ∧ W.card = 2 ∧ (v / 2 ^ 12 ≠ 0 → f = Entry.physAddr.get (t.mem d (v / 2 ^ 22))) := by
  rcases h.step with ⟨f', n, hstep, hcard, hf⟩
  cases hstep with
  | found _ => exact ⟨rfl, hcard, hf⟩
  | created h0 _ _ =>
      rw [h1] at h0
      exact absurd h0 one_ne_zero
  | failed h0 _ =>
      rw [h1] at h0
      exact absurd h0 one_ne_zero

/-- Ending a walk does nothing. -/
lemma i686PagewalkDone_run (hpt : ctx.pt ≠ none) (hpd : ctx.pd ≠ none) (s : Machine ρ) :
    (i686PagewalkDone ctx).run s = .ok ((), s) := by
  rcases Option.ne_none_iff_exists'.mp hpt with ⟨pt, hpt⟩
  rcases Option.ne_none_iff_exists'.mp hpd with ⟨pd, hpd⟩
  rw [i686PagewalkDone, hpt, hpd]
  rfl

lemma Walked.done (h : Walked K L t d v W t' f r s) (s' : Machine ρ) :
    (i686PagewalkDone r.1).run s' = .ok ((), s') := by
  rcases h.entry with ⟨i, -, hpt, -⟩
  exact i686PagewalkDone_run (by rw [hpt]; exact Option.some_ne_none _) h.pd s'

/-- A walk that was not set up reads a variable that nothing was stored to. -/
lemma i686Pagewalk_stuck {Q : I686PagewalkContext × ℕ → Machine ρ → Prop}
    {E : MachineFault → Prop} (h : ctx.pd = none) :
    Prog.wp (i686Pagewalk K L ctx v) Q E s ↔ E .uninitialised := by
  rw [i686Pagewalk, h, Prog.wp_bind, readVar, Prog.wp_fault]

/-- A call on a page that ran out of kernel pages before it began. -/
def OutOfWindows (K : KernelImage) (t s : Machine ρ) : Prop := ∃ ctx W, WalkFailed K t ctx W s

section Calls

variable (hrun : Running K t) (hd : ¬K.HoldsTable (c / 4096 % 2 ^ 20)) (hv : v < 2 ^ 32)
  (hwipe : Entry.present.get (t.mem (c / 4096 % 2 ^ 20) (v / 2 ^ 22)) = 0 → CanWipe K L t)

include hrun hd hv hwipe

/-- **`user_get_page`** reads the entry that the walk leads to. -/
lemma i686UserGetPage_wp :
    Prog.wp (i686UserGetPage K L c v)
      (fun res s' =>
        (∃ W t' f r, Walked K L t (c / 4096 % 2 ^ 20) v W t' f r s' ∧
          res = .ok (Entry.physAddr.get (s'.mem f (v / 2 ^ 12 % 2 ^ 10)) * 4096)) ∨
        (res = .error .oom ∧ OutOfWindows K t s'))
      (fun _ => False) t := by
  rw [i686UserGetPage, Prog.wp_bind]
  refine Prog.wp_mono (i686PagewalkInit_wp t c) ?_ fun _ he => he
  rintro ⟨err, ctx⟩ s (⟨herr, i, j, hready⟩ | ⟨herr, W, hfailed⟩)
  · simp only at herr hready
    rw [herr]
    refine (Prog.wp_bind _ _).mpr (Prog.wp_mono (i686Pagewalk_wp hready hrun hd hv hwipe) ?_
      fun _ he => he)
    rintro r s₁ ⟨W, t', f, hwalked⟩
    have hlt : Entry.physAddr.get (s₁.mem f (v / 2 ^ 12 % 2 ^ 10)) < 2 ^ 20 := Field.get_lt _ _
    rw [Prog.wp_bind, Prog.wp_of_run (hwalked.load hrun hwipe), Prog.wp_bind,
      Prog.wp_of_run (hwalked.done s₁), Prog.wp_pure, pgSize, wrap32_of_lt (by omega)]
    exact Or.inl ⟨W, t', f, r, hwalked, rfl⟩
  · simp only at herr hfailed
    rw [herr]
    exact (Prog.wp_pure _).mpr (Or.inr ⟨rfl, ctx, W, hfailed⟩)

/-- **`user_map_page`** changes the address in the entry. -/
lemma i686UserMapPage_wp (p : ℕ) :
    Prog.wp (i686UserMapPage K L c v p)
      (fun res s' =>
        (∃ W t' f r s, Walked K L t (c / 4096 % 2 ^ 20) v W t' f r s ∧ res = .ok () ∧
          s' = s.changeEntry f v fun x => Entry.physAddr.set x (p / 4096)) ∨
        (res = .error .oom ∧ OutOfWindows K t s'))
      (fun _ => False) t := by
  rw [i686UserMapPage, Prog.wp_bind]
  refine Prog.wp_mono (i686PagewalkInit_wp t c) ?_ fun _ he => he
  rintro ⟨err, ctx⟩ s (⟨herr, i, j, hready⟩ | ⟨herr, W, hfailed⟩)
  · simp only at herr hready
    rw [herr]
    refine (Prog.wp_bind _ _).mpr (Prog.wp_mono (i686Pagewalk_wp hready hrun hd hv hwipe) ?_
      fun _ he => he)
    rintro r s₁ ⟨W, t', f, hwalked⟩
    rw [Prog.wp_bind, Prog.wp_of_run (hwalked.modify hrun hwipe _), Prog.wp_bind,
      Prog.wp_of_run (hwalked.done _), Prog.wp_pure]
    exact Or.inl ⟨W, t', f, r, s₁, hwalked, rfl, rfl⟩
  · simp only at herr hfailed
    rw [herr]
    exact (Prog.wp_pure _).mpr (Or.inr ⟨rfl, ctx, W, hfailed⟩)

/-- **`user_set_page_flags`** changes the flags in the entry.  It does not ask whether a walk could
be set up. -/
lemma i686UserSetPageFlags_wp (flags : ℕ) :
    Prog.wp (i686UserSetPageFlags K L c v flags)
      (fun res s' => ∃ W t' f r s, Walked K L t (c / 4096 % 2 ^ 20) v W t' f r s ∧ res = .ok () ∧
        s' = s.changeEntry f v (flagsEntry flags))
      (fun e => e = .uninitialised ∧ freeWindows K t.mem < 2) t := by
  rw [i686UserSetPageFlags, Prog.wp_bind]
  refine Prog.wp_mono (i686PagewalkInit_wp t c) ?_ fun _ he => he.elim
  rintro ⟨err, ctx⟩ s (⟨-, i, j, hready⟩ | ⟨-, W, hfailed⟩)
  · simp only at hready
    refine (Prog.wp_bind _ _).mpr (Prog.wp_mono (i686Pagewalk_wp hready hrun hd hv hwipe) ?_
      fun _ he => he.elim)
    rintro r s₁ ⟨W, t', f, hwalked⟩
    rw [Prog.wp_bind, Prog.wp_of_run (hwalked.modify hrun hwipe _), Prog.wp_bind,
      Prog.wp_of_run (hwalked.done _), Prog.wp_pure]
    exact ⟨W, t', f, r, s₁, hwalked, rfl, rfl⟩
  · have hfew := hfailed.few
    rw [← hfailed.full] at hfew
    rw [Prog.wp_bind, i686Pagewalk_stuck hfailed.pd]
    exact ⟨rfl, hfew⟩

end Calls

end Walk

end Akaris
