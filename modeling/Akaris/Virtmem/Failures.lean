import Akaris.Virtmem.Walk

/-!
# User page calls that run out of memory

`i686_user_get_page`, `i686_user_map_page` and `i686_user_set_page_flags` need two kernel pages for
their windows, and a frame and a third kernel page where there is no page table yet.  Only the
first two calls look at whether the walk could be set up, and none looks at whether the page table
could be made.

* **`clean_failure_iff`** — when a call that cannot get what it needs reports so and changes
  nothing.
-/

namespace Akaris

variable {ρ : Type} {K : KernelImage} {L : Localmem ρ}

-- the rules are all that is used of it: computing it would run the program
attribute [local irreducible] Prog.wp

/-- A call on a user page. -/
inductive UserPageCall
  | getPage
  | mapPage (p : ℕ)
  | setPageFlags (flags : ℕ)
  deriving DecidableEq, Repr

/-- The call, on address `v` of context `c`. -/
def userPageCall (K : KernelImage) (L : Localmem ρ) (c v : ℕ) :
    UserPageCall → MachineProg ρ (Except VirtmemError Unit)
  | .getPage => do
      let r ← i686UserGetPage K L c v
      return r.map fun _ => ()
  | .mapPage p => i686UserMapPage K L c v p
  | .setPageFlags flags => i686UserSetPageFlags K L c v flags

section Failures

variable {t : Machine ρ} {c v : ℕ} {call : UserPageCall}

/-- A kernel page or a frame that a call on `v` needs cannot be allocated. -/
def Unavailable (K : KernelImage) (L : Localmem ρ) (t : Machine ρ) (c v : ℕ) : Prop :=
  freeWindows K t.mem < 2 ∨
    Entry.present.get (t.mem (c / 4096 % 2 ^ 20) (v / 2 ^ 22)) = 0 ∧
      ((∃ e, (L.pageAlloc t.localmem).1 = .error e) ∨ freeWindows K t.mem < 3)

/-- A call that cannot get what it needs says so, and changes neither memory nor `localmem`. -/
def FailsCleanly (K : KernelImage) (L : Localmem ρ) (t : Machine ρ) (c v : ℕ)
    (call : UserPageCall) : Prop :=
  Unavailable K L t c v → ∃ s', (userPageCall K L c v call).run t = .ok (.error .oom, s') ∧
    s'.mem = t.mem ∧ s'.localmem = t.localmem

lemma WalkReady.two_le {d i j : ℕ} {ctx : I686PagewalkContext} {s : Machine ρ}
    (h : WalkReady K t d ctx i j s) : 2 ≤ freeWindows K t.mem := by
  have hfree := h.opens.mem.freeWindows
  rw [Finset.card_pair h.ne.symm] at hfree
  omega

/-- **A call only fails before it began**, and only for the first two does that show: the window it
may have taken by then is not given back. -/
lemma userPageCall_wp (t : Machine ρ) (c v : ℕ) (call : UserPageCall) :
    Prog.wp (userPageCall K L c v call)
      (fun r s' => (r = .ok () ∧ 2 ≤ freeWindows K t.mem) ∨
        (r = .error .oom ∧ (∀ flags, call ≠ .setPageFlags flags) ∧
          ∃ ctx W, WalkFailed K t ctx W s'))
      (fun _ => 2 ≤ freeWindows K t.mem ∨ ∃ flags, call = .setPageFlags flags) t := by
  cases call with
  | getPage =>
      rw [userPageCall, i686UserGetPage, bind_assoc, Prog.wp_bind]
      refine Prog.wp_mono (i686PagewalkInit_wp t c) ?_ fun _ he => he.elim
      rintro ⟨err, ctx⟩ s (⟨herr, i, j, hready⟩ | ⟨herr, W, hfailed⟩)
      · simp only at herr hready
        have htwo := hready.two_le
        rw [herr]
        refine (Prog.wp_bind _ _).mpr ((Prog.wp_bind _ _).mpr (Prog.wp_mono (Prog.wp_any _ s) ?_
          fun _ _ => Or.inl htwo))
        rintro r s₁ -
        refine (Prog.wp_bind _ _).mpr (Prog.wp_mono (Prog.wp_any _ s₁) ?_ fun _ _ => Or.inl htwo)
        rintro x s₂ -
        refine (Prog.wp_bind _ _).mpr (Prog.wp_mono (Prog.wp_any _ s₂) ?_ fun _ _ => Or.inl htwo)
        rintro _ s₃ -
        exact (Prog.wp_pure _).mpr ((Prog.wp_pure _).mpr (Or.inl ⟨rfl, htwo⟩))
      · simp only at herr hfailed
        rw [herr]
        exact (Prog.wp_bind _ _).mpr ((Prog.wp_pure _).mpr ((Prog.wp_pure _).mpr
          (Or.inr ⟨rfl, fun _ h => UserPageCall.noConfusion h, ctx, W, hfailed⟩)))
  | mapPage p =>
      rw [userPageCall, i686UserMapPage, Prog.wp_bind]
      refine Prog.wp_mono (i686PagewalkInit_wp t c) ?_ fun _ he => he.elim
      rintro ⟨err, ctx⟩ s (⟨herr, i, j, hready⟩ | ⟨herr, W, hfailed⟩)
      · simp only at herr hready
        have htwo := hready.two_le
        rw [herr]
        refine (Prog.wp_bind _ _).mpr (Prog.wp_mono (Prog.wp_any _ s) ?_ fun _ _ => Or.inl htwo)
        rintro r s₁ -
        refine (Prog.wp_bind _ _).mpr (Prog.wp_mono (Prog.wp_any _ s₁) ?_ fun _ _ => Or.inl htwo)
        rintro _ s₂ -
        refine (Prog.wp_bind _ _).mpr (Prog.wp_mono (Prog.wp_any _ s₂) ?_ fun _ _ => Or.inl htwo)
        rintro _ s₃ -
        exact (Prog.wp_pure _).mpr (Or.inl ⟨rfl, htwo⟩)
      · simp only at herr hfailed
        rw [herr]
        exact (Prog.wp_pure _).mpr
          (Or.inr ⟨rfl, fun _ h => UserPageCall.noConfusion h, ctx, W, hfailed⟩)
  | setPageFlags flags =>
      rw [userPageCall, i686UserSetPageFlags, Prog.wp_bind]
      refine Prog.wp_mono (i686PagewalkInit_wp t c) ?_ fun _ he => he.elim
      rintro ⟨err, ctx⟩ s (⟨-, i, j, hready⟩ | ⟨-, W, hfailed⟩)
      · have htwo := hready.two_le
        refine (Prog.wp_bind _ _).mpr (Prog.wp_mono (Prog.wp_any _ s) ?_ fun _ _ => Or.inl htwo)
        rintro r s₁ -
        refine (Prog.wp_bind _ _).mpr (Prog.wp_mono (Prog.wp_any _ s₁) ?_ fun _ _ => Or.inl htwo)
        rintro _ s₂ -
        refine (Prog.wp_bind _ _).mpr (Prog.wp_mono (Prog.wp_any _ s₂) ?_ fun _ _ => Or.inl htwo)
        rintro _ s₃ -
        exact (Prog.wp_pure _).mpr (Or.inl ⟨rfl, htwo⟩)
      · rw [Prog.wp_bind, i686Pagewalk_stuck hfailed.pd]
        exact Or.inr ⟨flags, rfl⟩

/-- A window that was opened shows. -/
lemma WalkFailed.mem_eq_iff {ctx : I686PagewalkContext} {W : Finset ℕ} {s : Machine ρ}
    (h : WalkFailed K t ctx W s) : s.mem = t.mem ↔ freeWindows K t.mem = 0 := by
  rw [h.full, Finset.card_eq_zero]
  constructor
  · intro hmem
    by_contra hne
    rcases Finset.nonempty_iff_ne_empty.mpr hne with ⟨i, hi⟩
    have hbefore := (h.opens.mem.fresh i hi).2
    have hafter := h.opens.mem.opened i hi
    rw [hmem, hbefore] at hafter
    exact absurd hafter (by norm_num)
  · intro hempty
    rw [h.same hempty]

/-- **When running out of memory is clean.**  A call that has both its windows does not report that
the page table could not be made, and one that got the first window only keeps it.  What is left is
a call that finds no kernel page at all, and asks. -/
theorem clean_failure_iff (K : KernelImage) (L : Localmem ρ) (t : Machine ρ) (c v : ℕ)
    (call : UserPageCall) : FailsCleanly K L t c v call ↔
      ¬Unavailable K L t c v ∨ freeWindows K t.mem = 0 ∧ ∀ flags, call ≠ .setPageFlags flags := by
  constructor
  · intro h
    by_cases hun : Unavailable K L t c v
    · rcases h hun with ⟨s', hrun, hmem, -⟩
      rcases Prog.wp_run (userPageCall_wp t c v call) hrun with ⟨hr, -⟩ | ⟨-, hcall, ctx, W, hfailed⟩
      · exact absurd hr (by simp)
      · exact Or.inr ⟨hfailed.mem_eq_iff.mp hmem, hcall⟩
    · exact Or.inl hun
  · rintro (havail | ⟨hfree, hcall⟩) hun
    · exact absurd hun havail
    · have hreturns : Prog.wp (userPageCall K L c v call)
          (fun r s' => r = .error .oom ∧ s'.mem = t.mem ∧ s'.localmem = t.localmem)
          (fun _ => False) t := by
        refine Prog.wp_mono (userPageCall_wp t c v call) ?_ ?_
        · rintro r s' (⟨-, htwo⟩ | ⟨hr, -, ctx, W, hfailed⟩)
          · omega
          · exact ⟨hr, hfailed.mem_eq_iff.mpr hfree, hfailed.opens.localmem⟩
        · rintro e (htwo | ⟨flags, hflags⟩)
          · omega
          · exact hcall flags hflags
      rcases Prog.wp_returns hreturns with ⟨r, s', hrun, rfl, hkept⟩
      exact ⟨s', hrun, hkept⟩

lemma kernelFlatpt_smallMachine (i : ℕ) : kernelFlatpt smallImage smallMachine.mem i = 0 := by
  have hframe : ¬(2 + i / 1024 = 1 ∧ 768 ≤ i % 1024 ∧ i % 1024 < 1024) := by omega
  exact if_neg hframe

lemma freeWindows_smallMachine : freeWindows smallImage smallMachine.mem = 2 ^ 18 := by
  have hzero : ∀ i, Entry.present.get (kernelFlatpt smallImage smallMachine.mem i) = 0 := by
    intro i
    rw [kernelFlatpt_smallMachine, Field.get_zero]
  rw [freeWindows, Finset.filter_true_of_mem fun i _ => hzero i, Finset.card_range]

/-- **A lookup that could not make a page table succeeds.** -/
theorem failed_lookup_succeeds : ¬FailsCleanly smallImage noLocalmem smallMachine 4096 8192
    .getPage := by
  intro h
  have hun : Unavailable smallImage noLocalmem smallMachine 4096 8192 :=
    Or.inr ⟨by decide +kernel, Or.inl ⟨.oom, rfl⟩⟩
  rcases h hun with ⟨s', hrun, hmem, -⟩
  rcases Prog.wp_run (userPageCall_wp smallMachine 4096 8192 .getPage) hrun with
    ⟨hr, -⟩ | ⟨-, -, ctx, W, hfailed⟩
  · exact absurd hr (by simp)
  · have hfree := hfailed.mem_eq_iff.mp hmem
    rw [freeWindows_smallMachine] at hfree
    exact absurd hfree (by norm_num)

end Failures

end Akaris
