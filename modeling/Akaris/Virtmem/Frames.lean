import Akaris.Virtmem.PageHistory

/-!
# Where the frames of page tables come from

A frame is in use when it holds the page directory of an address space or one of its page tables.
Every step of a run takes such frames from `localmem`, at most, so that they all were free when the
run began.

* **`frames_used_once`** — in every run, no frame is in use twice, and none that is in use is free
  or belongs to the kernel.
-/

namespace Akaris

variable {ρ : Type} {K : KernelImage} {L : Localmem ρ}

-- the rules are all that is used of it: computing it would run the program
attribute [local irreducible] Prog.wp

/-- The frames that hold the page directories of address spaces and their page tables. -/
def framesInUse (s : Machine ρ) (live : List ℕ) : Set ℕ :=
  directories s live ∪ userTables s.mem (directories s live)

section Frames

variable {r r' : SpaceRun ρ} {s m : Machine ρ} {es : List PageEvent} {pg : List ℕ} {as : ℕ}
  {k' : MachineKmem ρ}

/-- A step that user pages do not see leaves the frames alone. -/
lemma framesInUse_unseen (h : Unseen L (directories r.k.env r.live) r.k.env s.mem)
    (has : s.as = r.k.env.as) : framesInUse s r.live = framesInUse r.k.env r.live := by
  rw [framesInUse, framesInUse, directories_congr has, h.userTables]

/-- A new address space takes a frame for its page directory, and has no page table yet. -/
lemma HistoryInv.frames_spaceAlloc (h : HistoryInv K L es pg r)
    (hrun : (addressSpaceAlloc K).run r.k = .ok (.ok as, k')) :
    framesInUse k'.env (as :: r.live)
      ⊆ framesInUse r.k.env r.live ∪ L.free r.k.env.localmem := by
  have hfit : Fits 4096 sizeofAddressSpace := ⟨by decide, by decide, by decide⟩
  rcases Prog.wp_run (addressSpaceAlloc_stock h.spaces.ready hfit) hrun as rfl with ⟨hlive, -⟩
  rcases Prog.wp_run (addressSpaceAlloc_wp h.spaces.ready hfit h.spaces.ctor) hrun with
    ⟨-, as', W, l, g, t, f, has, -, htaken, hmade, hframes, -⟩
  obtain rfl := Except.ok.inj has
  have htake := h.spaces.taken htaken hframes
  have hspare := htake.roles.free f hmade.free
  have hrange := L.free_range _ f hmade.free
  have hunseen := h.unseen_spaceAlloc htaken hframes hmade
  have hdirs : directories k'.env (as :: r.live) = insert f (directories r.k.env r.live) := by
    rw [hmade.directories hlive hrange.2, directories_congr htake.as]
  intro x hx
  rw [framesInUse, hdirs] at hx
  rcases hx with (rfl | hold) | ⟨d, rfl | hd, w, hw, h1, hframe⟩
  · exact Or.inr (htake.keeps.free hmade.free)
  · exact Or.inl (Or.inl hold)
  · rw [hmade.blank hspare.notTable hw, Field.get_zero] at h1
    exact absurd h1 zero_ne_one
  · refine Or.inl (Or.inr ?_)
    rw [← hunseen.userTables]
    exact ⟨d, hd, w, hw, h1, hframe⟩

/-- **What a step takes.** -/
lemma HistoryInv.frames_step (h : HistoryInv K L es pg r) (hs : SpaceStep K L r r') :
    L.free r'.k.env.localmem ⊆ L.free r.k.env.localmem ∧
    framesInUse r'.k.env r'.live ⊆ framesInUse r.k.env r.live ∪ L.free r.k.env.localmem := by
  cases hs with
  | kernelAlloc hrun =>
      rcases h.spaces.unseen_kernelAlloc hrun with ⟨hunseen, W, hopens⟩
      refine ⟨hopens.keeps.free, ?_⟩
      rw [framesInUse_unseen hunseen hopens.as]
      exact Set.subset_union_left
  | kernelMap ha hrun =>
      rcases h.spaces.unseen_kernelMap ha hrun with ⟨hunseen, has, hlocalmem, -⟩
      refine ⟨hlocalmem ▸ Set.Subset.rfl, ?_⟩
      rw [framesInUse_unseen hunseen has]
      exact Set.subset_union_left
  | spaceAlloc hrun => exact ⟨(h.spaces.spaceAlloc_keeps hrun).free, h.frames_spaceAlloc hrun⟩
  | setupKernelspace has hrun =>
      have hstep := Prog.wp_run (h.spaces.roles.setupKernelspace_wp ⟨_, has, rfl⟩) hrun
      refine ⟨hstep.keeps.free, ?_⟩
      rw [framesInUse_unseen (h.spaces.unseen_setupKernelspace has hrun) hstep.as]
      exact Set.subset_union_left
  | page has hv hrun =>
      have hcalled := Prog.wp_run (h.spaces.roles.userPageCall_called ⟨_, has, rfl⟩ hv _) hrun
      refine ⟨hcalled.step.keeps.free, ?_⟩
      rw [framesInUse, directories_congr hcalled.step.as]
      rintro x (hx | hx)
      · exact Or.inl (Or.inl hx)
      · exact (hcalled.tables hx).imp_left Or.inr

/-- **The frames in use were free** when the run began. -/
lemma frames_from_start (hinit : VirtmemInit K L m)
    (hr : Reachable (fun r => r = startSpaces K L m) (SpaceStep K L) r) :
    SpaceReachable K L r ∧ L.free r.k.env.localmem ⊆ L.free m.localmem ∧
      framesInUse r.k.env r.live ⊆ L.free m.localmem := by
  refine Reachable.invariant (I := fun r => SpaceReachable K L r ∧
    L.free r.k.env.localmem ⊆ L.free m.localmem ∧
      framesInUse r.k.env r.live ⊆ L.free m.localmem) ?_ ?_ hr
  · rintro _ rfl
    refine ⟨.base ⟨m, hinit, rfl⟩, Set.Subset.rfl, ?_⟩
    rintro x (⟨as, has, -⟩ | ⟨d, ⟨as, has, -⟩, -⟩)
    · exact absurd has List.not_mem_nil
    · exact absurd has List.not_mem_nil
  · rintro r r' ⟨hreach, hfree, hused⟩ hs
    rcases spaceReachable_iff.mp hreach with ⟨es, hhistory⟩
    rcases hhistory.inv with ⟨pg, hinv⟩
    have hstep := hinv.frames_step hs
    refine ⟨hreach.tail hs, hstep.1.trans hfree, hstep.2.trans ?_⟩
    exact Set.union_subset hused hfree

/-- **No frame is in use twice.**  In every run that begins on the machine `m`: every frame that is
in use was free in `m`, is not free any more, and is neither `kernel_pd` nor one of `kernel_pts`; two
address spaces never share a page directory; a page table is no page directory; and it is the page
table of one address space only, where it is entered once. -/
theorem frames_used_once (hinit : VirtmemInit K L m)
    (hr : Reachable (fun r => r = startSpaces K L m) (SpaceStep K L) r) :
    (∀ f ∈ framesInUse r.k.env r.live, f ∈ L.free m.localmem ∧ f ∉ L.free r.k.env.localmem ∧
      f ≠ K.kernelPd ∧ ¬K.HoldsTable f) ∧
    (∀ a ∈ r.live, ∀ b ∈ r.live, directoryOf r.k.env a = directoryOf r.k.env b → a = b) ∧
    (∀ f ∈ userTables r.k.env.mem (directories r.k.env r.live),
      f ∉ directories r.k.env r.live) ∧
    ∀ a ∈ r.live, ∀ b ∈ r.live, ∀ w < 768, ∀ w' < 768,
      Entry.present.get (r.k.env.mem (directoryOf r.k.env a) w) = 1 →
      Entry.present.get (r.k.env.mem (directoryOf r.k.env b) w') = 1 →
      Entry.physAddr.get (r.k.env.mem (directoryOf r.k.env a) w)
        = Entry.physAddr.get (r.k.env.mem (directoryOf r.k.env b) w') → a = b ∧ w = w' := by
  rcases frames_from_start hinit hr with ⟨hreach, -, hused⟩
  rcases hreach.inv with ⟨pg, h⟩
  refine ⟨fun f hf => ⟨hused hf, ?_⟩, h.distinct, fun f hf => ?_,
    fun a ha b hb w hw w' hw' h1 h1' heq => ?_⟩
  · rcases hf with hdir | htable
    · rcases h.roles.directory f hdir with ⟨-, hne, hnot⟩
      exact ⟨fun hfree => (h.roles.free f hfree).notDirectory hdir, hne, hnot⟩
    · have huser := h.roles.userTable_spare htable
      exact ⟨huser.taken, huser.spare.notKernel, huser.spare.notTable⟩
  · exact (h.roles.userTable_spare hf).spare.notDirectory
  · rcases h.roles.apart _ ⟨a, ha, rfl⟩ _ ⟨b, hb, rfl⟩ w hw w' hw' h1 h1' heq with ⟨hd, hww⟩
    exact ⟨h.distinct a ha b hb hd, hww⟩

end Frames

/-- The page directory of a new address space. -/
theorem frames_used_once_one : ∃ as k,
    (addressSpaceAlloc smallImage).run smallSpaces.k = .ok (.ok as, k) ∧
    directoryOf k.env as ∉ countingLocalmem.free k.env.localmem := by
  rcases smallSpaces_returns with ⟨as, k, hrun⟩
  have hr : Reachable (fun r => r = startSpaces smallImage countingLocalmem (smallMachineWith 300))
      (SpaceStep smallImage countingLocalmem) ⟨k, [as], []⟩ := .tail (.base rfl) (.spaceAlloc hrun)
  have hused := (frames_used_once smallMachineWith_init hr).1 (directoryOf k.env as)
    (Or.inl ⟨as, List.mem_singleton_self as, rfl⟩)
  exact ⟨as, k, hrun, hused.2.1⟩

end Akaris
