import Akaris.Virtmem.UserPages

/-!
# User pages over time

What the address spaces are for: each is a map from pages to entries, empty at first, and the calls
on a page change the entry of that page.  `replayPage` computes this map from the calls that were
effective, and nothing else; `SpaceHistory` is a run that keeps a list of them.

That the machine follows the map needs one more invariant than `SpaceInv`.  The objects of a cache
are stored to as well, so the frames of its slabs must not be page tables: `HistoryInv.slabTables`.

* **`pages_follow_history`** — in every run, every user page of every address space is translated
  as the effective calls on this page say, the last one deciding.  So whatever happens to other
  pages and other address spaces is not seen.
-/

namespace Akaris

variable {ρ : Type} {K : KernelImage} {L : Localmem ρ}

-- the rules are all that is used of it: computing it would run the program
attribute [local irreducible] Prog.wp

/-! ## The map -/

/-- A call on a page of an address space. -/
structure PageEvent where
  as : ℕ
  page : ℕ
  call : UserPageCall
  deriving DecidableEq, Repr

/-- What the calls, the latest first, make of the entry of a page. -/
def replayPage (as page : ℕ) : List PageEvent → Word
  | [] => 0
  | e :: es =>
      if e.as = as ∧ e.page = page then pageOp e.call (replayPage as page es)
      else replayPage as page es

/-- A page that no call names is empty. -/
lemma replayPage_eq_zero {as page : ℕ} {es : List PageEvent} (h : ∀ e ∈ es, e.as ≠ as) :
    replayPage as page es = 0 := by
  induction es with
  | nil => rfl
  | cons e es ih =>
      rw [List.forall_mem_cons] at h
      rw [replayPage, if_neg fun hc => h.1 hc.1, ih h.2]

/-! ## Runs with their history -/

/-- A step that is no call on a user page. -/
inductive QuietStep (K : KernelImage) (L : Localmem ρ) : SpaceRun ρ → SpaceRun ρ → Prop
  | kernelAlloc {r : SpaceRun ρ} {a : ℕ} {s' : Machine ρ} :
      (i686KernelAlloc K 1).run r.k.env = .ok (.ok a, s') →
      QuietStep K L r ⟨{ r.k with env := s' }, r.live, a :: r.pages⟩
  | kernelMap {r : SpaceRun ρ} {a p : ℕ} {res : Except VirtmemError Unit} {s' : Machine ρ} :
      a ∈ r.pages → (i686KernelMapVirtToPhys K p a).run r.k.env = .ok (res, s') →
      QuietStep K L r ⟨{ r.k with env := s' }, r.live, r.pages⟩
  | spaceAlloc {r : SpaceRun ρ} {as : ℕ} {k' : MachineKmem ρ} :
      (addressSpaceAlloc K).run r.k = .ok (.ok as, k') →
      QuietStep K L r ⟨k', as :: r.live, r.pages⟩
  | setupKernelspace {r : SpaceRun ρ} {as : ℕ} {res : Except VirtmemError Unit}
      {s' : Machine ρ} : as ∈ r.live →
      (i686SetupKernelspace K (r.k.env.as as).pd).run r.k.env = .ok (res, s') →
      QuietStep K L r ⟨{ r.k with env := s' }, r.live, r.pages⟩

/-- A run, and the calls on user pages in it that were effective, the latest first. -/
inductive SpaceHistory (K : KernelImage) (L : Localmem ρ) : List PageEvent → SpaceRun ρ → Prop
  | start {r : SpaceRun ρ} : SpaceStart K L r → SpaceHistory K L [] r
  | quiet {es : List PageEvent} {r r' : SpaceRun ρ} : SpaceHistory K L es r → QuietStep K L r r' →
      SpaceHistory K L es r'
  | page {es : List PageEvent} {r : SpaceRun ρ} {as v : ℕ} {call : UserPageCall}
      {res : Except VirtmemError Unit} {s' : Machine ρ} : SpaceHistory K L es r →
      as ∈ r.live → v < highstart → Effective K L r.k.env (r.k.env.as as).pd v →
      (userPageCall K L (r.k.env.as as).pd v call).run r.k.env = .ok (res, s') →
      SpaceHistory K L (⟨as, v / 4096, call⟩ :: es) ⟨{ r.k with env := s' }, r.live, r.pages⟩
  | lost {es : List PageEvent} {r : SpaceRun ρ} {as v : ℕ} {call : UserPageCall}
      {res : Except VirtmemError Unit} {s' : Machine ρ} : SpaceHistory K L es r →
      as ∈ r.live → v < highstart → ¬Effective K L r.k.env (r.k.env.as as).pd v →
      (userPageCall K L (r.k.env.as as).pd v call).run r.k.env = .ok (res, s') →
      SpaceHistory K L es ⟨{ r.k with env := s' }, r.live, r.pages⟩

section Histories

variable {size f g : ℕ} {pg out : List ℕ} {r r' : SpaceRun ρ} {k' : MachineKmem ρ} {D : Set ℕ}
  {s t : Machine ρ} {es : List PageEvent} {as a d p v : ℕ} {mem : PhysMem}

lemma QuietStep.step (h : QuietStep K L r r') : SpaceStep K L r r' := by
  cases h with
  | kernelAlloc hrun => exact .kernelAlloc hrun
  | kernelMap ha hrun => exact .kernelMap ha hrun
  | spaceAlloc hrun => exact .spaceAlloc hrun
  | setupKernelspace has hrun => exact .setupKernelspace has hrun

lemma SpaceHistory.step (h : SpaceHistory K L es r) (hs : SpaceStep K L r r') :
    ∃ es', SpaceHistory K L es' r' := by
  cases hs with
  | kernelAlloc hrun => exact ⟨es, h.quiet (.kernelAlloc hrun)⟩
  | kernelMap ha hrun => exact ⟨es, h.quiet (.kernelMap ha hrun)⟩
  | spaceAlloc hrun => exact ⟨es, h.quiet (.spaceAlloc hrun)⟩
  | setupKernelspace has hrun => exact ⟨es, h.quiet (.setupKernelspace has hrun)⟩
  | @page as v call _ _ has hv hrun =>
      by_cases heff : Effective K L r.k.env (r.k.env.as as).pd v
      · exact ⟨_, h.page has hv heff hrun⟩
      · exact ⟨es, h.lost has hv heff hrun⟩

/-- **Every run has a history.** -/
theorem spaceReachable_iff : SpaceReachable K L r ↔ ∃ es, SpaceHistory K L es r := by
  constructor
  · refine Reachable.invariant (I := fun r => ∃ es, SpaceHistory K L es r) ?_ ?_
    · exact fun r hr => ⟨[], .start hr⟩
    · rintro r r' ⟨es, h⟩ hs
      exact h.step hs
  · rintro ⟨es, h⟩
    induction h with
    | start hr => exact .base hr
    | quiet _ hs ih => exact ih.tail hs.step
    | page _ has hv _ hrun ih => exact ih.tail (.page has hv hrun)
    | lost _ has hv _ hrun ih => exact ih.tail (.page has hv hrun)

/-! ## Stores that user pages do not see -/

/-- Memory was stored to, but neither in the user halves of the page directories nor in a page
table. -/
structure Unseen (L : Localmem ρ) (D : Set ℕ) (t : Machine ρ) (mem : PhysMem) : Prop where
  directories : ∀ d ∈ D, ∀ w < 768, mem d w = t.mem d w
  tables : ∀ f ∈ userTables t.mem D, ∀ w, mem f w = t.mem f w

lemma Unseen.userTables (h : Unseen L D t mem) : userTables mem D = userTables t.mem D :=
  userTables_congr h.directories

lemma Unseen.userEntry (h : Unseen L D t mem) (hroles : Roles K L D t) (hd : d ∈ D)
    (hv : v < highstart) : userEntry mem d v = Akaris.userEntry t.mem d v := by
  have hw := userHalf hv
  refine hroles.userEntry_congr hd hv (h.directories d hd _ hw) fun f hpde hf _ => ?_
  refine h.tables f ⟨d, hd, _, hw, ?_, ?_⟩ _
  · rw [hpde, present_userPde]
  · rw [hpde, physAddr_userPde hf]

lemma Roles.userTable_spare (h : Roles K L D t) (hf : f ∈ userTables t.mem D) :
    UserTable K L D t.localmem f := by
  rcases hf with ⟨d, hd, w, hw, h1, rfl⟩
  rcases h.present d hd w hw h1 with ⟨f, hpde, hf, huser⟩
  rwa [hpde, physAddr_userPde hf]

/-- Opening windows is not seen. -/
lemma Roles.unseen_opens {W : Finset ℕ} (h : Roles K L D t) (hopens : Opens K W t s) :
    Unseen L D t s.mem :=
  ⟨fun _ hd _ _ => hopens.outside (h.notTable hd),
    fun _ hf _ => hopens.outside (h.userTable_spare hf).spare.notTable⟩

/-- **The invariant** of a history. -/
structure HistoryInv (K : KernelImage) (L : Localmem ρ) (es : List PageEvent) (pg : List ℕ)
    (r : SpaceRun ρ) : Prop where
  spaces : SpaceInv K L pg r
  named : ∀ e ∈ es, e.as ∈ r.live
  entries : ∀ as ∈ r.live, ∀ v < highstart,
    userEntry r.k.env.mem (directoryOf r.k.env as) v = replayPage as (v / 4096) es
  slabTables : ∀ i g, window i ∈ pg → Shows K r.k.env.mem i g →
    g ∉ userTables r.k.env.mem (directories r.k.env r.live)

lemma SpaceStart.history (h : SpaceStart K L r) : HistoryInv K L [] [] r := by
  have hinv := h.inv
  rcases h with ⟨t, -, rfl⟩
  exact ⟨hinv, fun _ he => absurd he List.not_mem_nil, fun _ has => absurd has List.not_mem_nil,
    fun _ _ hi => absurd hi List.not_mem_nil⟩

/-- What a slab shows is what it showed before. -/
lemma SpaceInv.slab_shows (h : SpaceInv K L pg r) (hk : Keeps K L r.k.env s) {i : ℕ}
    (hi : window i ∈ pg) (hshows : Shows K s.mem i g) :
    Shows K r.k.env.mem i g ∧ g ∉ L.free r.k.env.localmem := by
  rcases h.ready.pages _ hi with ⟨j, f, hij, hshows', -, hf⟩
  obtain rfl : i = j := window_inj hij
  obtain rfl : g = f := hshows.frame.symm.trans (hshows'.keeps hk).frame
  exact ⟨hshows', hf⟩

/-- **A step that user pages do not see.** -/
lemma HistoryInv.unseen (h : HistoryInv K L es pg r) (hs : SpaceInv K L pg r')
    (hlive : r'.live = r.live) (has : r'.k.env.as = r.k.env.as)
    (hshows : ∀ i g, window i ∈ pg → Shows K r'.k.env.mem i g → Shows K r.k.env.mem i g)
    (hmem : Unseen L (directories r.k.env r.live) r.k.env r'.k.env.mem) :
    HistoryInv K L es pg r' := by
  have hdirs : directories r'.k.env r'.live = directories r.k.env r.live := by
    rw [hlive, directories_congr has]
  refine ⟨hs, fun e he => hlive ▸ h.named e he, fun as has' v hv => ?_, fun i g hi hsh => ?_⟩
  · rw [hlive] at has'
    rw [directoryOf_congr has, hmem.userEntry h.spaces.roles ⟨as, has', rfl⟩ hv,
      h.entries as has' v hv]
  · rw [hdirs, hmem.userTables]
    exact h.slabTables i g hi (hshows i g hi hsh)

lemma SpaceInv.unseen_kernelAlloc (h : SpaceInv K L pg r)
    (hrun : (i686KernelAlloc K 1).run r.k.env = .ok (.ok a, s)) :
    Unseen L (directories r.k.env r.live) r.k.env s.mem ∧ ∃ W, Opens K W r.k.env s := by
  rcases Prog.wp_run (i686KernelAlloc_wp (Opens.refl r.k.env)) hrun with
    ⟨i, -, -, hopens, -⟩ | ⟨hr, -⟩
  · exact ⟨h.roles.unseen_opens hopens, _, hopens⟩
  · exact absurd hr (by simp)

lemma SpaceInv.unseen_kernelMap (h : SpaceInv K L pg r) {res : Except VirtmemError Unit}
    (ha : a ∈ r.pages) (hrun : (i686KernelMapVirtToPhys K p a).run r.k.env = .ok (res, s)) :
    Unseen L (directories r.k.env r.live) r.k.env s.mem ∧ s.as = r.k.env.as ∧
      s.localmem = r.k.env.localmem ∧
      ∀ j g, window j ∈ pg → Shows K s.mem j g → Shows K r.k.env.mem j g := by
  rcases h.pages a ha with ⟨hnot, i, hi, rfl, h1⟩
  rw [i686KernelMapVirtToPhys_run hi h1] at hrun
  obtain rfl := (Prod.mk.inj (Except.ok.inj hrun)).2
  refine ⟨⟨fun d hd w _ => ?_, fun f hf w => ?_⟩, rfl, rfl, fun j g hj hsh => ?_⟩
  · exact setKernelFlatpt_outside hi (h.roles.notTable hd)
  · exact setKernelFlatpt_outside hi (h.roles.userTable_spare hf).spare.notTable
  · refine hsh.congr (Eq.symm (setKernelFlatpt_of_ne ?_))
    rintro rfl
    exact hnot hj

lemma SpaceInv.unseen_setupKernelspace (h : SpaceInv K L pg r) {res : Except VirtmemError Unit}
    (has : as ∈ r.live)
    (hrun : (i686SetupKernelspace K (r.k.env.as as).pd).run r.k.env = .ok (res, s)) :
    Unseen L (directories r.k.env r.live) r.k.env s.mem := by
  have hd : directoryOf r.k.env as ∈ directories r.k.env r.live := ⟨as, has, rfl⟩
  rcases Prog.wp_run (i686SetupKernelspace_wp h.roles.running (h.roles.notTable hd)) hrun with
    ⟨-, i, j, -, hopens⟩
  refine ⟨fun d hd w hw => ?_, fun f hf w => ?_⟩
  · rw [hopens.outside (h.roles.notTable hd)]
    exact setPdes_of_lt hw
  · have hspare := (h.roles.userTable_spare hf).spare
    rw [hopens.outside hspare.notTable]
    refine setPdes_of_frame_ne ?_
    rintro rfl
    exact hspare.notDirectory hd

lemma HistoryInv.kernelAlloc (h : HistoryInv K L es pg r)
    (hrun : (i686KernelAlloc K 1).run r.k.env = .ok (.ok a, s)) :
    HistoryInv K L es pg ⟨{ r.k with env := s }, r.live, a :: r.pages⟩ := by
  rcases h.spaces.unseen_kernelAlloc hrun with ⟨hunseen, W, hopens⟩
  exact h.unseen (h.spaces.kernelAlloc hrun) rfl hopens.as
    (fun i g hi hsh => (h.spaces.slab_shows hopens.keeps hi hsh).1) hunseen

lemma HistoryInv.kernelMap (h : HistoryInv K L es pg r) {res : Except VirtmemError Unit}
    (ha : a ∈ r.pages) (hrun : (i686KernelMapVirtToPhys K p a).run r.k.env = .ok (res, s)) :
    HistoryInv K L es pg ⟨{ r.k with env := s }, r.live, r.pages⟩ := by
  rcases h.spaces.unseen_kernelMap ha hrun with ⟨hunseen, has, -, hshows⟩
  exact h.unseen (h.spaces.kernelMap ha hrun) rfl has hshows hunseen

lemma HistoryInv.setupKernelspace (h : HistoryInv K L es pg r) {res : Except VirtmemError Unit}
    (has : as ∈ r.live)
    (hrun : (i686SetupKernelspace K (r.k.env.as as).pd).run r.k.env = .ok (res, s)) :
    HistoryInv K L es pg ⟨{ r.k with env := s }, r.live, r.pages⟩ := by
  have hstep := Prog.wp_run (h.spaces.roles.setupKernelspace_wp ⟨as, has, rfl⟩) hrun
  exact h.unseen (h.spaces.setEnv hstep) rfl hstep.as
    (fun i g hi hsh => (h.spaces.slab_shows hstep.keeps hi hsh).1)
    (h.spaces.unseen_setupKernelspace has hrun)

/-- The user half of a new page directory is empty. -/
lemma SpaceMade.blank (h : SpaceMade K L t as f s) (hf : ¬K.HoldsTable f) {w : ℕ} (hw : w < 768) :
    s.mem f w = 0 := by
  rcases h.alloc with ⟨l, W, -, -, hopens⟩
  rw [hopens.outside hf]
  exact (setPdes_of_lt hw).trans (zeroFrame_self (by omega))

/-- Other frames are kept when an address space is made. -/
lemma SpaceMade.outside (h : SpaceMade K L t as f s) {f' w : ℕ} (hf' : ¬K.HoldsTable f')
    (hne : f' ≠ f) : s.mem f' w = t.mem f' w := by
  rcases h.alloc with ⟨l, W, -, -, hopens⟩
  rw [hopens.outside hf']
  exact (setPdes_of_frame_ne hne).trans (zeroFrame_of_ne hne)

/-- **A new address space** is made outside of what user pages see: its slab is none of their
tables, and its page directory is a new frame. -/
lemma HistoryInv.unseen_spaceAlloc (h : HistoryInv K L es pg r) {W : Finset ℕ} {l : ρ}
    (htaken : ObjectTaken K L sizeofAddressSpace pg r.k as W l g t)
    (hframes : SlabFrames K L pg r.k t) (hmade : SpaceMade K L t as f k'.env) :
    Unseen L (directories r.k.env r.live) r.k.env k'.env.mem := by
  rcases htaken.object with ⟨i, hi, hobj⟩
  have hfrom := hframes i g hi hobj.1
  have hspare := h.spaces.slabSpare hfrom
  have htake := h.spaces.taken htaken hframes
  have hfree := htake.keeps.free hmade.free
  have hfspare := h.spaces.roles.free f hfree
  have hgtable : g ∉ userTables r.k.env.mem (directories r.k.env r.live) := by
    intro hg
    rcases hfrom with hgfree | ⟨j, hj, hshows⟩
    · exact (h.spaces.roles.userTable_spare hg).taken hgfree
    · exact h.slabTables j g hj hshows hg
  -- a frame other than the object's and the new page directory
  have hother : ∀ f', ¬K.HoldsTable f' → f' ≠ g → f' ≠ f → ∀ w,
      k'.env.mem f' w = r.k.env.mem f' w := by
    intro f' hf' hg hf w
    rcases htaken.opens with ⟨mem, hmem, hopens⟩
    rw [hmade.outside hf' hf, hopens.outside hf']
    exact hmem f' hg w
  refine ⟨fun d hd w _ => hother d (h.spaces.roles.notTable hd) ?_ ?_ w, fun f' hf' w => ?_⟩
  · rintro rfl
    exact hspare.notDirectory hd
  · rintro rfl
    exact hfspare.notDirectory hd
  · have huser := h.spaces.roles.userTable_spare hf'
    refine hother f' huser.spare.notTable ?_ ?_ w
    · rintro rfl
      exact hgtable hf'
    · rintro rfl
      exact huser.taken hfree

lemma HistoryInv.spaceAlloc (h : HistoryInv K L es pg r)
    (hrun : (addressSpaceAlloc K).run r.k = .ok (.ok as, k')) :
    HistoryInv K L es (newSlab r.k ++ pg) ⟨k', as :: r.live, r.pages⟩ := by
  have hfit : Fits 4096 sizeofAddressSpace := ⟨by decide, by decide, by decide⟩
  have hspaces := h.spaces.spaceAlloc hrun
  rcases Prog.wp_run (addressSpaceAlloc_stock h.spaces.ready hfit) hrun as rfl with ⟨hlive, -⟩
  rcases Prog.wp_run (addressSpaceAlloc_wp h.spaces.ready hfit h.spaces.ctor) hrun with
    ⟨-, as', W, l, g, t, f, has, -, htaken, hmade, hframes, -⟩
  obtain rfl := Except.ok.inj has
  have htake := h.spaces.taken htaken hframes
  have hspare := htake.roles.free f hmade.free
  have hrange := L.free_range _ f hmade.free
  have hmem := h.unseen_spaceAlloc htaken hframes hmade
  have hdirs : directories k'.env (as :: r.live) = insert f (directories r.k.env r.live) := by
    rw [hmade.directories hlive hrange.2, directories_congr htake.as]
  refine ⟨hspaces, fun e he => List.mem_cons_of_mem _ (h.named e he), fun b hb v hv => ?_,
    fun i g' hi hshows => ?_⟩
  · rcases List.mem_cons.mp hb with rfl | hb
    · -- the new address space has no page table, and no call named it
      rw [hmade.directoryOf_self hrange.2, replayPage_eq_zero]
      · refine userEntry_absent ?_
        rw [hmade.blank hspare.notTable (userHalf hv), Field.get_zero]
      · rintro e he rfl
        exact hlive (h.named e he)
    · rw [hmade.directoryOf_mem hlive hb, directoryOf_congr htake.as,
        hmem.userEntry h.spaces.roles ⟨b, hb, rfl⟩ hv, h.entries b hb v hv]
  · rw [hdirs]
    rintro ⟨d, hd, w, hw, h1, hframe⟩
    rcases hd with rfl | hd
    · rw [hmade.blank hspare.notTable hw, Field.get_zero] at h1
      exact zero_ne_one h1
    · have hg : g' ∈ userTables r.k.env.mem (directories r.k.env r.live) := by
        rw [← hmem.userTables]
        exact ⟨d, hd, w, hw, h1, hframe⟩
      -- what the slab showed before the address space was made
      have hkeeps := hmade.keeps hspare.notTable
      rcases htaken.pages _ hi with ⟨j, f', hij, hshows', -, -⟩
      obtain rfl : i = j := window_inj hij
      obtain rfl : g' = f' := hshows.frame.symm.trans (hshows'.keeps hkeeps).frame
      rcases hframes i g' hi hshows' with hfree | ⟨j, hj, hold⟩
      · exact (h.spaces.roles.userTable_spare hg).taken hfree
      · exact h.slabTables j g' hj hold hg

/-- A call on a page, effective or not. -/
lemma HistoryInv.called (h : HistoryInv K L es pg r) {call : UserPageCall}
    {res : Except VirtmemError Unit} (has : as ∈ r.live) (hv : v < highstart)
    (hrun : (userPageCall K L (r.k.env.as as).pd v call).run r.k.env = .ok (res, s))
    {es' : List PageEvent} (hnamed : ∀ e ∈ es', e.as ∈ r.live)
    (hself : ∀ b ∈ r.live, ∀ v' < highstart,
      (Effective K L r.k.env (r.k.env.as as).pd v → b ≠ as ∨ v' / 4096 ≠ v / 4096) →
        replayPage b (v' / 4096) es' = replayPage b (v' / 4096) es)
    (hentry : Effective K L r.k.env (r.k.env.as as).pd v →
      replayPage as (v / 4096) es' = pageOp call (replayPage as (v / 4096) es)) :
    HistoryInv K L es' pg ⟨{ r.k with env := s }, r.live, r.pages⟩ := by
  have hd : directoryOf r.k.env as ∈ directories r.k.env r.live := ⟨as, has, rfl⟩
  have hcalled := Prog.wp_run (h.spaces.roles.userPageCall_called hd hv call) hrun
  have hdirs : directories s r.live = directories r.k.env r.live := directories_congr hcalled.step.as
  refine ⟨h.spaces.setEnv hcalled.step, hnamed, fun b hb v' hv' => ?_, fun i g hi hshows => ?_⟩
  · have hb' : directoryOf r.k.env b ∈ directories r.k.env r.live := ⟨b, hb, rfl⟩
    show userEntry s.mem (directoryOf s b) v' = _
    rw [directoryOf_congr hcalled.step.as]
    by_cases hc : Effective K L r.k.env (r.k.env.as as).pd v ∧ b = as ∧ v' / 4096 = v / 4096
    · rcases hc with ⟨heff, rfl, hpage⟩
      rw [userEntry_page hpage, hpage, hentry heff, ← h.entries b has v hv]
      exact hcalled.entry heff
    · have hother : Effective K L r.k.env (r.k.env.as as).pd v →
          b ≠ as ∨ v' / 4096 ≠ v / 4096 := by
        intro heff
        by_contra hne
        push Not at hne
        exact hc ⟨heff, hne⟩
      rw [hself b hb v' hv' hother, ← h.entries b hb v' hv']
      refine hcalled.others _ hb' v' hv' fun heff => (hother heff).imp_left fun hne heq => ?_
      exact hne (h.spaces.distinct b hb as has heq)
  · show g ∉ userTables s.mem (directories s r.live)
    rw [hdirs]
    rcases h.spaces.slab_shows hcalled.step.keeps hi hshows with ⟨hbefore, hfree⟩
    intro hg
    rcases hcalled.tables hg with hold | hnew
    · exact h.slabTables i g hi hbefore hold
    · exact hfree hnew

/-- **The invariant holds in every run.** -/
theorem SpaceHistory.inv (h : SpaceHistory K L es r) : ∃ pg, HistoryInv K L es pg r := by
  induction h with
  | start hr => exact ⟨[], hr.history⟩
  | quiet _ hs ih =>
      rcases ih with ⟨pg, hinv⟩
      cases hs with
      | kernelAlloc hrun => exact ⟨pg, hinv.kernelAlloc hrun⟩
      | kernelMap ha hrun => exact ⟨pg, hinv.kernelMap ha hrun⟩
      | spaceAlloc hrun => exact ⟨_, hinv.spaceAlloc hrun⟩
      | setupKernelspace has hrun => exact ⟨pg, hinv.setupKernelspace has hrun⟩
  | @page es r as v call res s' _ has hv heff hrun ih =>
      rcases ih with ⟨pg, hinv⟩
      refine ⟨pg, hinv.called has hv hrun ?_ (fun b _ v' _ hother => if_neg ?_)
        fun _ => if_pos ⟨rfl, rfl⟩⟩
      · exact List.forall_mem_cons.mpr ⟨has, hinv.named⟩
      · rintro ⟨rfl, hpage⟩
        exact (hother heff).elim (fun hne => hne rfl) fun hne => hne hpage.symm
  | lost _ has hv heff hrun ih =>
      rcases ih with ⟨pg, hinv⟩
      exact ⟨pg, hinv.called has hv hrun hinv.named (fun _ _ _ _ _ => rfl)
        fun hc => absurd hc heff⟩

/-- **User pages follow their history.**  In every run, every user address of every address space is
translated as the entry says that the effective calls on its page make, from an empty entry on. -/
theorem pages_follow_history (h : SpaceHistory K L es r) (has : as ∈ r.live) (hv : v < highstart) :
    mmuTranslate r.k.env.mem (directoryOf r.k.env as) v
      = entryTranslation (replayPage as (v / 4096) es) := by
  rcases h.inv with ⟨pg, hinv⟩
  rw [hinv.spaces.roles.translation ⟨as, has, rfl⟩ hv, hinv.entries as has v hv]

end Histories

/-- Two calls on page `0x1000` of a new address space: it is mapped to `0x5000`, for reading and
writing. -/
theorem pages_follow_history_two : ∃ (es : List PageEvent) (r : SpaceRun ℕ) (as : ℕ),
    SpaceHistory smallImage countingLocalmem es r ∧
    es = [⟨as, 1, .setPageFlags 3⟩, ⟨as, 1, .mapPage 0x5000⟩] ∧
    mmuTranslate r.k.env.mem (directoryOf r.k.env as) 0x1000 = some ⟨5, true, true⟩ := by
  rcases smallSpaces_returns with ⟨as, k, hrun⟩
  have h₁ : SpaceHistory smallImage countingLocalmem [] ⟨k, [as], []⟩ :=
    .quiet (.start ⟨_, smallMachineWith_init, rfl⟩) (.spaceAlloc hrun)
  have hmem : as ∈ [as] := List.mem_singleton_self as
  have hv : 0x1000 < highstart := by norm_num [highstart]
  rcases h₁.inv with ⟨pg, hinv⟩
  rcases hinv.spaces.roles.pageMapped (c := (k.env.as as).pd) (v := 0x1000) ⟨as, hmem, rfl⟩ le_rfl
    hv (smallSpace_available hrun) 0x5000 3 with ⟨s₁, s₂, s₃, hpage⟩
  have hmapped : (userPageCall smallImage countingLocalmem (k.env.as as).pd 0x1000
      (.mapPage 0x5000)).run k.env = .ok (.ok (), s₁) := hpage.mapPage
  have h₂ := h₁.page hmem hv hpage.mapped.effective hmapped
  have hpd : (s₁.as as).pd = (k.env.as as).pd := by rw [hpage.mapped.called.step.as]
  have heff : Effective smallImage countingLocalmem s₁ (s₁.as as).pd 0x1000 := by
    rw [hpd]
    exact hpage.flagged.effective
  have hflagged : (userPageCall smallImage countingLocalmem (s₁.as as).pd 0x1000
      (.setPageFlags 3)).run s₁ = .ok (.ok (), s₂) := by
    rw [hpd]
    exact hpage.setFlags
  have h₃ := h₂.page hmem hv heff hflagged
  refine ⟨_, _, as, h₃, rfl, (pages_follow_history h₃ hmem hv).trans ?_⟩
  simp only [replayPage]
  decide +kernel

end Akaris
