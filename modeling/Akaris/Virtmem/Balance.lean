import Akaris.Virtmem.CopyExact
import Akaris.Virtmem.Traces

/-!
# The kernel pages that calls use up

The operations on user pages, the setup of a page directory and the copies work through kernel
pages that they take with `kernel_alloc` and give back with `kernel_free`, which does nothing.  So
every call that succeeds has fewer kernel pages free after it than before.

A `CallRun` is a sequence of such calls that all returned.  What the calls are supposed to do is
`KeepsPages`: no call that succeeds changes which kernel pages are present, and the calls do not by
themselves make a later `kernel_alloc` fail.

* **`kernel_pages_kept_iff`** — a run keeps the kernel pages exactly when it has no call, or no
  kernel page was free to begin with.
* **`successes_use_up`** — successes are paid for with kernel pages.
-/

namespace Akaris

variable {ρ : Type} {K : KernelImage} {L : Localmem ρ}

-- the rules are all that is used of it: computing it would run the program
attribute [local irreducible] Prog.wp

/-! ## Calls -/

/-- A call of a user of virtual memory. -/
inductive UserCall
  | page (c v : ℕ) (call : UserPageCall)
  | setupKernelspace (c : ℕ)
  | copyToKernel (dst c src len : ℕ)
  | copyToUser (c dst src len : ℕ)

/-- The call. -/
def userCall (K : KernelImage) (L : Localmem ρ) :
    UserCall → Prog (AsFault MachineFault) (Machine ρ) (Except VirtmemError Unit)
  | .page c v call => callVirtmem (userPageCall K L c v call)
  | .setupKernelspace c => callVirtmem (i686SetupKernelspace K c)
  | .copyToKernel dst c src len => commonVirtmemCopyUserToKernel (i686Cpu K L) dst c src len
  | .copyToUser c dst src len => commonVirtmemCopyKernelToUser (i686Cpu K L) c dst src len

/-- A call that returned. -/
structure Outcome (ρ : Type) where
  before : Machine ρ
  call : UserCall
  result : Except VirtmemError Unit
  after : Machine ρ

/-- The calls `os`, the last one first, take the machine `s₀` to `s`. -/
inductive CallRun (K : KernelImage) (L : Localmem ρ) (s₀ : Machine ρ) :
    List (Outcome ρ) → Machine ρ → Prop
  | nil : CallRun K L s₀ [] s₀
  | cons {os : List (Outcome ρ)} {s s' : Machine ρ} {call : UserCall}
      {result : Except VirtmemError Unit} : CallRun K L s₀ os s →
      (userCall K L call).run s = .ok (result, s') →
      CallRun K L s₀ (⟨s, call, result, s'⟩ :: os) s'

/-- A call that succeeds leaves the same kernel pages present. -/
def Balanced (K : KernelImage) (o : Outcome ρ) : Prop :=
  o.result = .ok () → reservedPages K o.after.mem = reservedPages K o.before.mem

/-- `kernel_alloc` hands out a page. -/
def CanAlloc (K : KernelImage) (s : Machine ρ) : Prop :=
  ∃ a s', (i686KernelAlloc K 1).run s = .ok (.ok a, s')

/-- **The calls keep the kernel pages.** -/
structure KeepsPages (K : KernelImage) (s₀ : Machine ρ) (os : List (Outcome ρ)) (s : Machine ρ) :
    Prop where
  balanced : ∀ o ∈ os, Balanced K o
  available : CanAlloc K s₀ → CanAlloc K s

/-- The machine is fit for the call: the running page directory reaches the kernel pages, no kernel
page table is used as a page directory or written to, and copies are of ranges that can be copied,
with the kernel pages for all of them. -/
def Fit (K : KernelImage) (L : Localmem ρ) (s : Machine ρ) : UserCall → Prop
  | .page c v _ =>
      Running K s ∧ ¬K.HoldsTable (c / 4096 % 2 ^ 20) ∧ v < 2 ^ 32 ∧
        (Entry.present.get (s.mem (c / 4096 % 2 ^ 20) (v / 2 ^ 22)) = 0 → CanWipe K L s)
  | .setupKernelspace c => Running K s ∧ ¬K.HoldsTable (c / 4096 % 2 ^ 20)
  | .copyToKernel dst c src len =>
      Running K s ∧ UserRange K L s c src len ∧ KernelBuffer K s c src len dst ∧
        (∀ i < len, DataFrame K s c src len (s.kernelPlace dst i).1) ∧
        1 + 2 * pagesIn src len ≤ freeWindows K s.mem
  | .copyToUser c dst src len =>
      Running K s ∧ UserRange K L s c dst len ∧ KernelBuffer K s c dst len src ∧
        (∀ i < len, DataFrame K s c dst len (s.userPlace c dst i).1) ∧
        1 + 2 * pagesIn dst len ≤ freeWindows K s.mem

/-! ## Kernel pages -/

section Pages

variable {mem mem' base : PhysMem} {W : Finset ℕ} {i : ℕ}

lemma mem_reservedPages : i ∈ reservedPages K mem ↔
    i < 2 ^ 18 ∧ Entry.present.get (kernelFlatpt K mem i) = 1 := by
  rw [reservedPages, Finset.mem_filter, Finset.mem_range]

lemma reservedPages_congr (h : ∀ i < 2 ^ 18, kernelFlatpt K mem' i = kernelFlatpt K mem i) :
    reservedPages K mem' = reservedPages K mem := by
  ext i
  rw [mem_reservedPages, mem_reservedPages]
  refine and_congr_right fun hi => ?_
  rw [h i hi]

/-- A kernel page is present or free. -/
lemma card_reservedPages (mem : PhysMem) :
    (reservedPages K mem).card + freeWindows K mem = 2 ^ 18 := by
  have hfree : freeWindows K mem = ((Finset.range (2 ^ 18)).filter fun i =>
      ¬Entry.present.get (kernelFlatpt K mem i) = 1).card := by
    rw [freeWindows]
    refine congrArg Finset.card (Finset.filter_congr fun i _ => ?_)
    have hcases := present_cases (kernelFlatpt K mem i)
    omega
  rw [hfree, reservedPages, Finset.card_filter_add_card_filter_not, Finset.card_range]

lemma freeWindows_lt (h : reservedPages K mem ⊂ reservedPages K mem') :
    freeWindows K mem' < freeWindows K mem := by
  have hlt := Finset.card_lt_card h
  have hbefore := card_reservedPages (K := K) mem
  have hafter := card_reservedPages (K := K) mem'
  omega

/-- Opening windows takes kernel pages. -/
lemma Opened.takes (h : Opened K W base mem) (hW : W.Nonempty) :
    reservedPages K base ⊂ reservedPages K mem := by
  rcases hW with ⟨i, hi⟩
  refine Finset.ssubset_iff_subset_ne.mpr ⟨fun j hj => ?_, (h.reserves hi).symm⟩
  rw [mem_reservedPages] at hj ⊢
  exact ⟨hj.1, by rw [h.kept hj.1 hj.2, hj.2]⟩

end Pages

/-! ## What a call takes -/

section Takes

variable {t s : Machine ρ} {W : Finset ℕ} {c d v k f n dst src u len : ℕ}

/-- Making a page table does not touch the kernel pages. -/
lemma PdeStep.reservedPages {t' : Machine ρ} (h : PdeStep K L t d k t' f n)
    (hd : ¬K.HoldsTable d) (hwipe : Entry.present.get (t.mem d k) = 0 → CanWipe K L t) :
    reservedPages K t'.mem = Akaris.reservedPages K t.mem := by
  cases h with
  | found _ => rfl
  | failed _ _ => rfl
  | created h0 hf _ =>
      refine reservedPages_congr fun i hi => ?_
      rw [kernelFlatpt_write_outside hi hd, kernelFlatpt_zeroFrame hi (hwipe h0 _ hf).notTable]

/-- A walk takes kernel pages. -/
lemma Walked.takes {t' : Machine ρ} {r : I686PagewalkContext × ℕ}
    (h : Walked K L t d v W t' f r s) (hd : ¬K.HoldsTable d)
    (hwipe : Entry.present.get (t.mem d (v / 2 ^ 22)) = 0 → CanWipe K L t) :
    reservedPages K t.mem ⊂ reservedPages K s.mem := by
  rcases h.step with ⟨f', n, hstep, hcard, -⟩
  rw [← hstep.reservedPages hd hwipe]
  exact h.opens.mem.takes (Finset.card_pos.mp (by omega))

/-- Changing an entry gives no kernel page back if it stays present, whatever table it is in. -/
lemma reservedPages_changeEntry {g : Word → Word}
    (hg : ∀ x, Entry.present.get x = 1 → Entry.present.get (g x) = 1) :
    reservedPages K s.mem ⊆ reservedPages K (s.changeEntry f v g).mem := by
  intro i hi
  rw [mem_reservedPages] at hi ⊢
  refine ⟨hi.1, ?_⟩
  by_cases hentry : K.kernelPts + i / 1024 = f ∧ i % 1024 = v / 2 ^ 12 % 2 ^ 10
  · have hword : kernelFlatpt K (s.changeEntry f v g).mem i = g (kernelFlatpt K s.mem i) := by
      rw [kernelFlatpt, kernelFlatpt, hentry.1, hentry.2]
      exact write_self
    rw [hword]
    exact hg _ hi.2
  · have hword : kernelFlatpt K (s.changeEntry f v g).mem i = kernelFlatpt K s.mem i :=
      if_neg hentry
    rw [hword, hi.2]

/-- **A call on a page** takes kernel pages if it succeeds. -/
lemma userPageCall_takes (hrun : Running K t) (hd : ¬K.HoldsTable (c / 4096 % 2 ^ 20))
    (hv : v < 2 ^ 32)
    (hwipe : Entry.present.get (t.mem (c / 4096 % 2 ^ 20) (v / 2 ^ 22)) = 0 → CanWipe K L t)
    (call : UserPageCall) :
    Prog.wp (userPageCall K L c v call)
      (fun r s' => r = .ok () → reservedPages K t.mem ⊂ reservedPages K s'.mem)
      (fun _ => True) t := by
  cases call with
  | getPage =>
      refine (Prog.wp_bind _ _).mpr
        (Prog.wp_mono (i686UserGetPage_wp hrun hd hv hwipe) ?_ fun _ he => he.elim)
      rintro r s' (⟨W, t', f, r', hwalked, rfl⟩ | ⟨rfl, -⟩)
      · exact (Prog.wp_pure _).mpr fun _ => hwalked.takes hd hwipe
      · exact (Prog.wp_pure _).mpr fun h => absurd h (by simp [Except.map])
  | mapPage p =>
      refine Prog.wp_mono (i686UserMapPage_wp hrun hd hv hwipe p) ?_ fun _ he => he.elim
      rintro r s' (⟨W, t', f, r', s, hwalked, rfl, rfl⟩ | ⟨rfl, -⟩)
      · refine fun _ => (hwalked.takes hd hwipe).trans_subset (reservedPages_changeEntry ?_)
        intro x hx
        rw [Field.get_set_of_disjoint (by decide), hx]
      · exact fun h => absurd h (by simp)
  | setPageFlags flags =>
      refine Prog.wp_mono (i686UserSetPageFlags_wp hrun hd hv hwipe flags) ?_ fun _ _ => trivial
      rintro r s' ⟨W, t', f, r', s, hwalked, rfl, rfl⟩
      refine fun _ => (hwalked.takes hd hwipe).trans_subset (reservedPages_changeEntry ?_)
      intro x _
      rw [flagsEntry, Field.get_set_self]
      rfl

/-- A copy takes kernel pages. -/
lemma Opens.copied_takes {locs : ℕ → ℕ × ℕ} {val : ℕ → ℕ}
    (h : Opens K W (t.copied locs val len) s) (hW : W.Nonempty)
    (hdata : ∀ i < len, DataFrame K t c u len (locs i).1) :
    reservedPages K t.mem ⊂ reservedPages K s.mem := by
  have hsame : reservedPages K (t.copied locs val len).mem = reservedPages K t.mem :=
    reservedPages_congr fun i hi => kernelFlatpt_copied (fun n hn => (hdata n hn).plain.notTable) hi
  rw [← hsame]
  exact h.mem.takes hW

/-- **A call that succeeds takes kernel pages.** -/
lemma userCall_takes {call : UserCall} (hfit : Fit K L t call) :
    Prog.wp (userCall K L call)
      (fun r s' => r = .ok () → reservedPages K t.mem ⊂ reservedPages K s'.mem)
      (fun _ => True) t := by
  cases call with
  | page c v call =>
      rcases hfit with ⟨hrun, hd, hv, hwipe⟩
      rw [userCall, callVirtmem, Prog.wp_zoom]
      exact userPageCall_takes hrun hd hv hwipe call
  | setupKernelspace c =>
      rcases hfit with ⟨hrun, hd⟩
      rw [userCall, callVirtmem, Prog.wp_zoom]
      refine Prog.wp_mono (i686SetupKernelspace_wp hrun hd) ?_ fun _ _ => trivial
      rintro r s' ⟨-, i, j, -, hopens⟩ -
      have hsame : reservedPages K (setPdes K t.mem (c / 4096 % 2 ^ 20) 768 256)
          = reservedPages K t.mem :=
        reservedPages_congr fun i hi => kernelFlatpt_setPdes hi hd
      rw [← hsame]
      exact hopens.mem.takes ⟨j, Finset.mem_insert_self j _⟩
  | copyToKernel dst c src len =>
      rcases hfit with ⟨hrun, hrange, hbuf, hdata, hwindows⟩
      rcases copyUserToKernel_run hrange hrun hbuf hdata hwindows with
        ⟨e, W, hcopy, hopens, hW⟩
      rw [userCall, Prog.wp_of_run hcopy]
      exact fun _ => hopens.copied_takes (Finset.card_pos.mp (by omega)) hdata
  | copyToUser c dst src len =>
      rcases hfit with ⟨hrun, hrange, hbuf, hdata, hwindows⟩
      rcases copyKernelToUser_run hrange hrun hbuf hdata hwindows with
        ⟨e, W, hcopy, hopens, hW⟩
      rw [userCall, Prog.wp_of_run hcopy]
      exact fun _ => hopens.copied_takes (Finset.card_pos.mp (by omega)) hdata

end Takes

/-! ## Calls that return -/

section Returns

variable {s : Machine ρ} {c : ℕ}

/-- Setting up a page directory goes on without its windows, and then it does not return. -/
lemma i686SetupKernelspace_returns (s : Machine ρ) (c : ℕ) :
    Prog.wp (i686SetupKernelspace K c) (fun r _ => r = .ok () ∧ freeWindows K s.mem ≠ 0)
      (fun _ => True) s := by
  rw [i686SetupKernelspace, Prog.wp_bind]
  refine Prog.wp_mono (i686PagewalkInit_wp s c) ?_ fun _ _ => trivial
  rintro ⟨err, ctx⟩ s₁ (⟨-, i, j, hready⟩ | ⟨-, W, hfailed⟩)
  · have htwo := hready.two_le
    refine (Prog.wp_bind _ _).mpr (Prog.wp_mono (Prog.wp_any _ s₁) ?_ fun _ _ => trivial)
    rintro pd s₂ -
    refine (Prog.wp_bind _ _).mpr (Prog.wp_mono (Prog.wp_any _ s₂) ?_ fun _ _ => trivial)
    rintro _ s₃ -
    refine (Prog.wp_bind _ _).mpr (Prog.wp_mono (Prog.wp_any _ s₃) ?_ fun _ _ => trivial)
    rintro _ s₄ -
    exact (Prog.wp_pure _).mpr ⟨rfl, by omega⟩
  · have hpd : ctx.pd = none := hfailed.pd
    refine (Prog.wp_bind _ _).mpr ?_
    rw [hpd]
    exact (Prog.wp_fault _).mpr trivial

/-- A copy without its mapping does not return. -/
lemma copy_returns {α : Type} (x : Option ℕ → Prog (AsFault MachineFault) (Machine ρ) α)
    (s : Machine ρ) :
    Prog.wp (do
      let r ← callVirtmem ((i686Cpu K L).virtmemKernelAlloc 1)
      let mapping := storeOk r none
      let _ ← x mapping
      let m ← readStored mapping
      let _ ← callVirtmem ((i686Cpu K L).virtmemKernelFree m)
      return (.ok () : Except VirtmemError Unit))
      (fun r _ => r = .ok () ∧ freeWindows K s.mem ≠ 0) (fun _ => True) s := by
  rw [Prog.wp_bind, callVirtmem, Prog.wp_zoom]
  refine Prog.wp_mono (i686KernelAlloc_wp (K := K) (Opens.refl s)) ?_ fun _ _ => trivial
  rintro r s₁ (⟨i, -, -, hopens, -⟩ | ⟨rfl, -, -⟩)
  · have hfree := hopens.mem.freeWindows
    rw [Finset.card_insert_of_notMem (Finset.notMem_empty i), Finset.card_empty] at hfree
    refine (Prog.wp_bind _ _).mpr (Prog.wp_mono (Prog.wp_any _ _) ?_ fun _ _ => trivial)
    rintro _ s₂ -
    refine (Prog.wp_bind _ _).mpr (Prog.wp_mono (Prog.wp_any _ _) ?_ fun _ _ => trivial)
    rintro _ s₃ -
    refine (Prog.wp_bind _ _).mpr (Prog.wp_mono (Prog.wp_any _ _) ?_ fun _ _ => trivial)
    rintro _ s₄ -
    exact (Prog.wp_pure _).mpr ⟨rfl, by omega⟩
  · refine (Prog.wp_bind _ _).mpr (Prog.wp_mono (Prog.wp_any _ _) ?_ fun _ _ => trivial)
    rintro _ s₂ -
    exact (Prog.wp_bind _ _).mpr ((Prog.wp_fault _).mpr trivial)

/-- **A call that returned** succeeded, and had kernel pages, or it has none left. -/
lemma userCall_returns (s : Machine ρ) (call : UserCall) :
    Prog.wp (userCall K L call)
      (fun r s' => (r = .ok () ∧ freeWindows K s.mem ≠ 0) ∨
        (r ≠ .ok () ∧ freeWindows K s'.mem = 0 ∧ (freeWindows K s.mem = 0 → s' = s)))
      (fun _ => True) s := by
  cases call with
  | page c v call =>
      rw [userCall, callVirtmem, Prog.wp_zoom]
      refine Prog.wp_mono (userPageCall_wp s c v call) ?_ fun _ _ => trivial
      rintro r s' (⟨rfl, htwo⟩ | ⟨rfl, -, ctx, W, hfailed⟩)
      · exact Or.inl ⟨rfl, by omega⟩
      · have hcount := hfailed.opens.mem.freeWindows
        have hfull := hfailed.full
        refine Or.inr ⟨by simp, by omega, fun h0 => hfailed.same ?_⟩
        rw [h0] at hfull
        exact Finset.card_eq_zero.mp hfull.symm
  | setupKernelspace c =>
      rw [userCall, callVirtmem, Prog.wp_zoom]
      exact Prog.wp_mono (i686SetupKernelspace_returns s c) (fun _ _ => Or.inl) fun _ _ => trivial
  | copyToKernel dst c src len =>
      exact Prog.wp_mono (copy_returns (L := L) (fun mapping => copyAlt (i686Cpu K L) c
        (fun _ src => src) (copyPartialPageFromUser (i686Cpu K L)) mapping len dst src len none) s)
        (fun _ _ => Or.inl) fun _ _ => trivial
  | copyToUser c dst src len =>
      exact Prog.wp_mono (copy_returns (L := L) (fun mapping => copyAlt (i686Cpu K L) c
        (fun dst _ => dst) (copyPartialPageToUser (i686Cpu K L)) mapping len dst src len none) s)
        (fun _ _ => Or.inl) fun _ _ => trivial

end Returns

/-! ## Runs of calls -/

section Runs

variable {s₀ s : Machine ρ} {os : List (Outcome ρ)}

lemma canAlloc_iff : CanAlloc K s ↔ freeWindows K s.mem ≠ 0 := by
  rcases Prog.wp_returns (i686KernelAlloc_wp (K := K) (Opens.refl s)) with
    ⟨r, s', hrun, ⟨i, rfl, -, hopens, -⟩ | ⟨rfl, hfull, -⟩⟩
  · have hfree := hopens.mem.freeWindows
    rw [Finset.card_insert_of_notMem (Finset.notMem_empty i), Finset.card_empty] at hfree
    exact ⟨fun _ => by omega, fun _ => ⟨_, _, hrun⟩⟩
  · refine ⟨?_, fun h => absurd hfull h⟩
    rintro ⟨a, s'', hrun'⟩
    rw [hrun] at hrun'
    exact absurd (Prod.mk.inj (Except.ok.inj hrun')).1 (by simp)

/-- Without a kernel page nothing happens. -/
lemma CallRun.starved (h : CallRun K L s₀ os s) (h0 : freeWindows K s₀.mem = 0) :
    s = s₀ ∧ ∀ o ∈ os, o.result ≠ .ok () := by
  induction h with
  | nil => exact ⟨rfl, by simp⟩
  | cons _ hrun ih =>
      rcases ih with ⟨rfl, hall⟩
      rcases Prog.wp_run (userCall_returns _ _) hrun with ⟨-, hne⟩ | ⟨hr, -, hsame⟩
      · exact absurd h0 hne
      · refine ⟨hsame h0, fun o ho => ?_⟩
        rcases List.mem_cons.mp ho with rfl | ho
        · exact hr
        · exact hall o ho

/-- **The step lemma**: a balanced call that returned has left no kernel page. -/
lemma Balanced.exhausts {s' : Machine ρ} {call : UserCall} {result : Except VirtmemError Unit}
    (hfit : Fit K L s call) (hrun : (userCall K L call).run s = .ok (result, s'))
    (hbalanced : Balanced K ⟨s, call, result, s'⟩) : freeWindows K s'.mem = 0 := by
  rcases Prog.wp_run (userCall_returns s call) hrun with ⟨hr, -⟩ | ⟨-, h0, -⟩
  · have htakes := Prog.wp_run (userCall_takes hfit) hrun hr
    rw [← hbalanced hr] at htakes
    exact absurd htakes (ssubset_irrefl _)
  · exact h0

/-- **Which runs keep the kernel pages.**  A run without a call does, and one that begins without a
free kernel page, whatever the machine is; no other does whose calls the machine is fit for. -/
theorem kernel_pages_kept_iff (h : CallRun K L s₀ os s) :
    (os = [] ∨ freeWindows K s₀.mem = 0 → KeepsPages K s₀ os s) ∧
      ((∀ o ∈ os, Fit K L o.before o.call) →
        (KeepsPages K s₀ os s ↔ os = [] ∨ freeWindows K s₀.mem = 0)) := by
  have hstarved : os = [] ∨ freeWindows K s₀.mem = 0 → KeepsPages K s₀ os s := by
    rintro (rfl | h0)
    · cases h
      exact ⟨by simp, id⟩
    · rcases h.starved h0 with ⟨rfl, hall⟩
      exact ⟨fun o ho hr => absurd hr (hall o ho), id⟩
  refine ⟨hstarved, fun hfit => ⟨fun hkeeps => ?_, hstarved⟩⟩
  cases h with
  | nil => exact Or.inl rfl
  | cons _ hrun =>
      have h0 := (hkeeps.balanced _ (List.mem_cons_self ..)).exhausts
        (hfit _ (List.mem_cons_self ..)) hrun
      refine Or.inr ?_
      by_contra hne
      exact canAlloc_iff.mp (hkeeps.available (canAlloc_iff.mpr hne)) h0

/-- **Successes use up kernel pages**: a run has no more of them than there were kernel pages. -/
theorem successes_use_up (h : CallRun K L s₀ os s) (hfit : ∀ o ∈ os, Fit K L o.before o.call) :
    (os.countP fun o => o.result.isOk) + freeWindows K s.mem ≤ freeWindows K s₀.mem := by
  induction h with
  | nil => simp
  | @cons os s s' call result _ hrun ih =>
      have hlast : Fit K L s call := hfit _ (List.mem_cons_self ..)
      have hrest := ih fun o ho => hfit o (List.mem_cons_of_mem _ ho)
      rw [List.countP_cons]
      cases result with
      | ok u =>
          have hless := freeWindows_lt (Prog.wp_run (userCall_takes hlast) hrun rfl)
          show (os.countP fun o => o.result.isOk) + 1 + freeWindows K s'.mem ≤ _
          omega
      | error e =>
          rcases Prog.wp_run (userCall_returns s call) hrun with ⟨hr, -⟩ | ⟨-, h0, -⟩
          · exact absurd hr (by simp)
          · show (os.countP fun o => o.result.isOk) + 0 + freeWindows K s'.mem ≤ _
            omega

end Runs

/-! ## A copy and a lookup -/

/-- A lookup on the machine of the copies succeeds. -/
lemma copyMachine_lookup : ∃ s,
    (userCall smallImage noLocalmem (.page 1228800 8192 .getPage)).run copyMachine
      = .ok (.ok (), s) := by
  have hmapped : Mapped copyMachine.mem (1228800 / 4096 % 2 ^ 20) 8192 := by
    unfold Mapped
    decide +kernel
  rcases i686UserGetPage_run (L := noLocalmem) copyMachine_running
    (copyMachine_plain (by norm_num)).notTable (by norm_num) hmapped
    (le_trans (by norm_num) copyMachine_freeWindows) with ⟨r, s, hrun, -, hr⟩
  rw [hr (by norm_num)] at hrun
  have hcall : (userPageCall smallImage noLocalmem 1228800 8192 .getPage).run copyMachine
      = .ok (.ok (), s) := by
    rw [userPageCall]
    exact Prog.run_bind_ok hrun
  exact ⟨s, callVirtmem_run hcall⟩

lemma copyMachine_fit : Fit smallImage noLocalmem copyMachine (.page 1228800 8192 .getPage) :=
  ⟨copyMachine_running, (copyMachine_plain (by norm_num)).notTable, by norm_num,
    fun _ _ hf => hf.elim⟩

/-- Four bytes are copied to two user pages there, and then the first of the pages is looked up. -/
lemma copyMachine_calls : ∃ os s, CallRun smallImage noLocalmem copyMachine os s ∧
    os.map Outcome.result = [.ok (), .ok ()] ∧
      ∀ o ∈ os, Fit smallImage noLocalmem o.before o.call := by
  have hdata := copyMachine_user.data
  rcases copyKernelToUser_run copyMachine_range copyMachine_running copyMachine_buffer hdata
    copyMachine_windows with ⟨e, W, hcopy, hopens, hcard⟩
  have hrun : Running smallImage e := hopens.running (DataFrame.running copyMachine_running hdata)
  have hmapped := (copyMachine_range.translate hdata hopens (i := 0) (by norm_num)).1
  have hfree : 2 ≤ freeWindows smallImage e.mem := by
    have hcount := hopens.mem.freeWindows
    rw [hcard, freeWindows_copied fun n hn => (hdata n hn).plain.notTable] at hcount
    have hbefore := copyMachine_freeWindows
    have hfive : 1 + 2 * pagesIn 12286 4 = 5 := by decide
    omega
  rcases i686UserGetPage_run (L := noLocalmem) hrun copyMachine_range.notTable (by norm_num) hmapped
    hfree with ⟨r, s, hget, -, hr⟩
  rw [hr (by norm_num)] at hget
  have hlook : (userPageCall smallImage noLocalmem 1228800 12286 .getPage).run e
      = .ok (.ok (), s) := by
    rw [userPageCall]
    exact Prog.run_bind_ok hget
  have hcopied : CallRun smallImage noLocalmem copyMachine
      [⟨copyMachine, .copyToUser 1228800 12286 3221250047 4, .ok (), e⟩] e := .cons .nil hcopy
  have hcalls : CallRun smallImage noLocalmem copyMachine
      [⟨e, .page 1228800 12286 .getPage, .ok (), s⟩,
        ⟨copyMachine, .copyToUser 1228800 12286 3221250047 4, .ok (), e⟩] s :=
    .cons hcopied (callVirtmem_run hlook)
  refine ⟨_, s, hcalls, rfl, fun o ho => ?_⟩
  rcases List.mem_cons.mp ho with rfl | ho
  · exact ⟨hrun, copyMachine_range.notTable, by norm_num, fun _ _ hf => hf.elim⟩
  · rw [List.mem_singleton.mp ho]
    exact ⟨copyMachine_running, copyMachine_range, copyMachine_buffer, hdata, copyMachine_windows⟩

/-- Two calls that succeed. -/
theorem kernel_pages_kept_two : ∃ os s, CallRun smallImage noLocalmem copyMachine os s ∧
    os.map Outcome.result = [.ok (), .ok ()] ∧ ¬KeepsPages smallImage copyMachine os s := by
  rcases copyMachine_calls with ⟨os, s, hcalls, hresults, hfit⟩
  refine ⟨os, s, hcalls, hresults, fun hkeeps => ?_⟩
  rcases ((kernel_pages_kept_iff hcalls).2 hfit).mp hkeeps with rfl | h0
  · exact absurd hresults (by simp)
  · have hfree := copyMachine_freeWindows
    omega

/-- The two calls use up two kernel pages at least. -/
theorem successes_use_up_two : ∃ os s, CallRun smallImage noLocalmem copyMachine os s ∧
    os.map Outcome.result = [.ok (), .ok ()] ∧
    2 + freeWindows smallImage s.mem ≤ freeWindows smallImage copyMachine.mem := by
  rcases copyMachine_calls with ⟨os, s, hcalls, hresults, hfit⟩
  have hcount := successes_use_up hcalls hfit
  have htwo : (os.countP fun o => o.result.isOk) = (os.map Outcome.result).countP Except.isOk := by
    rw [List.countP_map]
    rfl
  rw [htwo, hresults] at hcount
  exact ⟨os, s, hcalls, hresults, hcount⟩

/-- **A lookup that succeeds** leaves other kernel pages present. -/
theorem lookup_not_balanced : ∃ s,
    (userCall smallImage noLocalmem (.page 1228800 8192 .getPage)).run copyMachine
      = .ok (.ok (), s) ∧
    reservedPages smallImage s.mem ≠ reservedPages smallImage copyMachine.mem := by
  rcases copyMachine_lookup with ⟨s, hrun⟩
  exact ⟨s, hrun, (Prog.wp_run (userCall_takes copyMachine_fit) hrun rfl).ne'⟩

end Akaris
