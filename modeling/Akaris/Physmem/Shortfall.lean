import Akaris.Physmem.Conservation

/-!
# A source that counts too few pages

Booting leaves a source that says it has fewer pages than its list holds (`Akaris/Boot/Count.lean`).

`recount` is the manager with the count corrected.  Correcting commutes with taking a page, with
putting one back and with creating a feeder, so that the invariant of `Akaris/Physmem/FreeLists.lean`
holds of the corrected managers throughout: that is `Short`.  What has to be proved again is the code
that looks at the count.

* **`IsShortSource.pages_lost`** — with any feeders over it, such a source hands out pages as one
  that counts right, but as many as it does not count are left on its list for ever.
-/

namespace Akaris

open BsdList

/-! ## The count corrected -/

/-- The managers with `lost` more pages counted by the source. -/
def Managers.recount (lost : ℕ) (s : Managers) : Managers :=
  s.setMgr 0 { s.mgr 0 with freePages := (s.mgr 0).freePages + lost }

section Recount

variable {s : Managers} {lost m k x : ℕ}

@[simp] lemma recount_count : (s.recount lost).count = s.count := rfl

@[simp] lemma recount_links : (s.recount lost).links = s.links := rfl

@[simp] lemma recount_self : (s.recount lost).mgr 0
    = { s.mgr 0 with freePages := (s.mgr 0).freePages + lost } := by
  rw [Managers.recount, Managers.setMgr_mgr, Function.update_self]

lemma recount_of_ne (h : k ≠ 0) : (s.recount lost).mgr k = s.mgr k := by
  rw [Managers.recount, Managers.setMgr_mgr, Function.update_of_ne h]

@[simp] lemma recount_v : ((s.recount lost).mgr k).v = (s.mgr k).v := by
  by_cases h : k = 0
  · rw [h, recount_self]
  · rw [recount_of_ne h]

@[simp] lemma recount_totalPages :
    ((s.recount lost).mgr k).totalPages = (s.mgr k).totalPages := by
  by_cases h : k = 0
  · rw [h, recount_self]
  · rw [recount_of_ne h]

lemma recount_setLinks (L : Links ℕ ℕ) :
    (s.recount lost).setLinks L = (s.setLinks L).recount lost := rfl

/-- Storing the source back. -/
lemma recount_setMgr_self (p : Physmem) :
    (s.recount lost).setMgr 0 { p with freePages := p.freePages + lost }
      = (s.setMgr 0 p).recount lost := by
  simp only [Managers.recount, Managers.setMgr, Function.update_self, Function.update_idem]

/-- Storing a feeder back. -/
lemma recount_setMgr_of_ne (hm : m ≠ 0) (p : Physmem) :
    (s.recount lost).setMgr m p = (s.setMgr m p).recount lost := by
  simp only [Managers.recount, Managers.setMgr, Function.update_of_ne hm.symm,
    Function.update_comm hm]

/-- Taking a page, if the source is not asked for one that it does not count. -/
lemma recount_pop (h : m = 0 → 0 < (s.mgr 0).freePages) :
    (s.recount lost).pop m x = (s.pop m x).recount lost := by
  by_cases hm : m = 0
  · subst hm
    have hpos := h rfl
    have hcount : (s.mgr 0).freePages + lost - 1 = (s.mgr 0).freePages - 1 + lost := by omega
    rw [Managers.pop, Managers.pop, recount_self, ← recount_setLinks, ← recount_setMgr_self]
    simp only [hcount, recount_links]
  · rw [Managers.pop, Managers.pop, recount_of_ne hm, recount_setMgr_of_ne hm, recount_setLinks,
      recount_links]

/-- Putting a page back, if the count does not wrap around. -/
lemma recount_push (h : (s.mgr 0).freePages + lost + 1 < 2 ^ 32) :
    (s.recount lost).push m x = (s.push m x).recount lost := by
  by_cases hm : m = 0
  · subst hm
    have hcount : wrap32 ((s.mgr 0).freePages + lost + 1)
        = wrap32 ((s.mgr 0).freePages + 1) + lost := by
      rw [wrap32_of_lt h, wrap32_of_lt (by omega)]
      omega
    rw [Managers.push, Managers.push, recount_self, ← recount_setMgr_self, ← recount_setLinks]
    simp only [hcount, recount_links]
  · rw [Managers.push, Managers.push, recount_of_ne hm, ← recount_setMgr_of_ne hm,
      ← recount_setLinks, recount_links]

/-- Counting a page in `total_pages` of a feeder. -/
lemma recount_addTotal (hm : m ≠ 0) :
    (s.recount lost).addTotal m = (s.addTotal m).recount lost := by
  rw [Managers.addTotal, Managers.addTotal, recount_of_ne hm, recount_setMgr_of_ne hm]

/-- Creating a feeder. -/
lemma recount_create (h : 0 < s.count) (keep min : ℕ) :
    feederPhysmemCreate (s.recount lost) 0 keep min
      = (feederPhysmemCreate s 0 keep min).recount lost := by
  have hne : s.count ≠ 0 := h.ne'
  simp only [feederPhysmemCreate, Managers.recount, Managers.setMgr, Function.update_of_ne hne.symm,
    Function.update_comm hne]

end Recount

/-! ## The code, run on the lists -/

/-- The managers represent the free lists `fl`, but the source counts `lost` pages too few. -/
def Short (T : PageTable) (lost : ℕ) (s : Managers) (fl : ℕ → List ℕ) : Prop :=
  Holds T (s.recount lost) fl

section Operations

variable {T : PageTable} {lost : ℕ} {s s' : Managers} {fl fl' : ℕ → List ℕ} {m x d : ℕ}
  {xs : List ℕ}

lemma Short.holds (h : Short T lost s fl) : Holds T (s.recount lost) fl := h

lemma Short.pos (h : Short T lost s fl) : 0 < s.count := h.holds.pos

lemma Short.root (h : Short T lost s fl) : (s.mgr 0).v = .common := by
  rw [← recount_v, h.holds.root]

lemma Short.feeders (h : Short T lost s fl) (hm0 : m ≠ 0) (hm : m < s.count) :
    ∃ f, (s.mgr m).v = .feeder f ∧ f.source = 0 := by
  rcases h.holds.feeders m hm0 hm with ⟨f, hf, hsrc⟩
  rw [recount_v] at hf
  exact ⟨f, hf, hsrc⟩

lemma Short.chain (h : Short T lost s fl) (hm : m < s.count) : Chain s.links (.first m) (fl m) :=
  h.holds.chain m hm

/-- The source counts too few pages. -/
lemma Short.freePages_zero (h : Short T lost s fl) :
    (s.mgr 0).freePages + lost = (fl 0).length := by
  have hcount := h.holds.freePages 0 h.pos
  rwa [recount_self] at hcount

/-- The feeders count right. -/
lemma Short.freePages (h : Short T lost s fl) (hm0 : m ≠ 0) (hm : m < s.count) :
    (s.mgr m).freePages = (fl m).length := by
  have hcount := h.holds.freePages m hm
  rwa [recount_of_ne hm0] at hcount

/-- A page that is counted is on the list. -/
lemma Short.counted (h : Short T lost s fl) (hm : m < s.count) (hpos : 0 < (s.mgr m).freePages) :
    ∃ x xs, fl m = x :: xs := by
  have hlen : 0 < (fl m).length := by
    by_cases hm0 : m = 0
    · subst hm0
      have hcount := h.freePages_zero
      omega
    · have hcount := h.freePages hm0 hm
      omega
  exact List.exists_cons_of_length_pos hlen

lemma Short.pop (h : Short T lost s fl) (hm : m < s.count) (hpos : 0 < (s.mgr m).freePages)
    (hfl : fl m = x :: xs) : Short T lost (s.pop m x) (Function.update fl m xs) := by
  rw [Short, ← recount_pop fun hm0 => hm0 ▸ hpos]
  exact h.holds.pop hm hfl

/-- The count of the source does not wrap around. -/
lemma Short.small (h : Short T lost s fl) (hlen : (allFree s.count fl).length + 1 < 2 ^ 32) :
    (s.mgr 0).freePages + lost + 1 < 2 ^ 32 := by
  have hcount := h.freePages_zero
  have hle : (fl 0).length ≤ (allFree s.count fl).length := by
    have hsplit := (flatMap_perm_erase (f := fl) (List.mem_range.mpr h.pos)).length_eq
    rw [List.length_append] at hsplit
    rw [allFree]
    omega
  omega

lemma Short.push (h : Short T lost s fl) (hm : m < s.count) (hx : x ∉ allFree s.count fl)
    (hman : T.managed x) (hlen : (allFree s.count fl).length + 1 < 2 ^ 32) :
    Short T lost (s.push m x) (Function.update fl m (x :: fl m)) := by
  rw [Short, ← recount_push (h.small hlen)]
  exact h.holds.push hm hx hman hlen

lemma Short.addTotal (h : Short T lost s fl) (hm0 : m ≠ 0) : Short T lost (s.addTotal m) fl := by
  rw [Short, ← recount_addTotal hm0]
  exact h.holds.addTotal

lemma Short.create (h : Short T lost s fl) (keep min : ℕ) :
    Short T lost (feederPhysmemCreate s 0 keep min) (Function.update fl s.count []) := by
  rw [Short, ← recount_create h.pos]
  exact h.holds.create keep min

lemma Short.physToPage_run (h : Short T lost s fl) (hm : m < s.count) (d addr : ℕ) :
    (physmemPhysToPage T (d + 2) m addr).run s = .ok (T.physToPage addr, s) := by
  by_cases hm0 : m = 0
  · subst hm0
    simp [physmemPhysToPage, getMgr, h.root]
  · rcases h.feeders hm0 hm with ⟨f, hf, hsrc⟩
    simp [physmemPhysToPage, getMgr, hf, hsrc, h.root]

lemma Short.pageToPhys_run (h : Short T lost s fl) (hm : m < s.count) (d page : ℕ) :
    (physmemPageToPhys T (d + 2) m page).run s = .ok (T.pageToPhys page, s) := by
  by_cases hm0 : m = 0
  · subst hm0
    simp [physmemPageToPhys, getMgr, h.root]
  · rcases h.feeders hm0 hm with ⟨f, hf, hsrc⟩
    simp [physmemPageToPhys, getMgr, hf, hsrc, h.root]

/-- A manager that counts no page reports `PHYSMEM_ERR_OOM`, whatever its list holds. -/
lemma commonPhysmemPageAlloc_none (hzero : (s.mgr m).freePages = 0) :
    (commonPhysmemPageAlloc T d m).run s = .ok (.error .oom, s) := by
  simp [commonPhysmemPageAlloc, getMgr, hzero]

/-- A manager that counts a page hands out the first of its list. -/
lemma Short.commonAlloc_run (h : Short T lost s fl) (hm : m < s.count)
    (hpos : 0 < (s.mgr m).freePages) (hfl : fl m = x :: xs) (d : ℕ) :
    (commonPhysmemPageAlloc T (d + 2) m).run s = .ok (.ok (T.pageToPhys x), s.pop m x) := by
  have hfirst : s.links.lhFirst m = some x := by
    have hread := (h.chain hm).read_eq
    rw [hfl] at hread
    exact hread
  have hconv := (h.pop hm hpos hfl).pageToPhys_run hm d x
  simp only [commonPhysmemPageAlloc, getMgr, Prog.run_bind_gets, hpos.ne', if_false,
    Prog.run_bind_update, Managers.setMgr_links, hfirst]
  exact Prog.run_bind_ok hconv

lemma Short.commonFree_run (h : Short T lost s fl) (hm : m < s.count) (d addr : ℕ) :
    (commonPhysmemPageFree T (d + 2) m addr).run s
      = .ok (.ok (), s.push m (T.physToPage addr)) := by
  rw [commonPhysmemPageFree, Prog.run_bind_ok (h.physToPage_run hm d addr)]
  rfl

/-- The managers after some pages were moved between their lists. -/
structure Moved (T : PageTable) (lost : ℕ) (s : Managers) (fl : ℕ → List ℕ) (s' : Managers)
    (fl' : ℕ → List ℕ) : Prop where
  short : Short T lost s' fl'
  count : s'.count = s.count
  v : ∀ j, (s'.mgr j).v = (s.mgr j).v
  perm : (allFree s.count fl').Perm (allFree s.count fl)

lemma Moved.refl (h : Short T lost s fl) : Moved T lost s fl s fl :=
  ⟨h, rfl, fun _ => rfl, List.Perm.refl _⟩

lemma Moved.trans {s₁ s₂ : Managers} {fl₁ fl₂ : ℕ → List ℕ} (h : Moved T lost s fl s₁ fl₁)
    (h' : Moved T lost s₁ fl₁ s₂ fl₂) : Moved T lost s fl s₂ fl₂ := by
  have hperm := h'.perm
  rw [h.count] at hperm
  exact ⟨h'.short, h'.count.trans h.count, fun j => (h'.v j).trans (h.v j), hperm.trans h.perm⟩

/-- A page that the source counts, moved to a feeder. -/
lemma Short.moved (h : Short T lost s fl) (hm : m < s.count) (hm0 : m ≠ 0)
    (hpos : 0 < (s.mgr 0).freePages) (hfl : fl 0 = x :: xs) :
    Moved T lost s fl (((s.pop 0 x).push m x).addTotal m)
      (Function.update (Function.update fl 0 xs) m (x :: fl m)) := by
  have hperm := allFree_pop fl h.pos hfl
  have hx := (List.nodup_cons.mp (hperm.nodup_iff.mp h.holds.nodup)).1
  have hman : T.managed x := h.holds.managed x (hperm.mem_iff.mpr (by simp))
  have hlen : (allFree s.count (Function.update fl 0 xs)).length + 1 < 2 ^ 32 := by
    have hsmall : (allFree s.count fl).length < 2 ^ 32 := h.holds.small
    rwa [hperm.length_eq, List.length_cons] at hsmall
  have hpush := ((h.pop h.pos hpos hfl).push (m := m) hm hx hman hlen).addTotal hm0
  have hback := allFree_push (Function.update fl 0 xs) x hm
  rw [Function.update_of_ne hm0] at hpush hback
  exact ⟨hpush, rfl, by simp, hback.trans hperm.symm⟩

/-- The first page of a list was free before. -/
lemma Moved.mem_free {k : ℕ} (h : Moved T lost s fl s' fl') (hk : k < s'.count)
    (hfl : fl' k = x :: xs) : x ∈ allFree s.count fl := by
  refine h.perm.mem_iff.mp (mem_allFree.mpr ⟨k, h.count ▸ hk, ?_⟩)
  rw [hfl]
  exact List.mem_cons_self

/-- A moved page is counted by the feeder. -/
lemma Moved.counted (h : Moved T lost s fl s' fl') (hm : m < s.count) (hm0 : m ≠ 0)
    (hne : fl' m ≠ []) : 0 < (s'.mgr m).freePages := by
  rw [h.short.freePages hm0 (h.count ▸ hm)]
  exact List.length_pos_of_ne_nil hne

/-- **The refill loop** moves pages that the source counts; it did nothing if the feeder counts no
page after it. -/
lemma Short.refill_run {f : FeederPhysmem} (hsrc : f.source = 0) (hm0 : m ≠ 0) (d n : ℕ)
    (newaddr : Option ℕ) (h : Short T lost s fl) (hm : m < s.count) :
    ∃ s' fl', (feederRefill T (pageAlloc T (d + 3)) (d + 3) m f n newaddr).run s = .ok ((), s') ∧
      Moved T lost s fl s' fl' ∧ (s' = s ∨ 0 < (s'.mgr m).freePages) := by
  induction n generalizing s fl newaddr with
  | zero => exact ⟨s, fl, rfl, Moved.refl h, Or.inl rfl⟩
  | succ n ih =>
      by_cases hlow : (s.mgr 0).freePages ≤ f.minFreeSourcePages
      · -- the source is down to its reserve: the loop breaks
        refine ⟨s, fl, ?_, Moved.refl h, Or.inl rfl⟩
        simp [feederRefill, getMgr, hsrc, hlow]
      · have hpos : 0 < (s.mgr 0).freePages := by omega
        rcases h.counted h.pos hpos with ⟨x, xs, hfl⟩
        have hmoved := h.moved hm hm0 hpos hfl
        have hone := hmoved.counted hm hm0 (by simp)
        have hman : T.managed x :=
          h.holds.managed x (mem_allFree.mpr ⟨0, h.pos, by rw [hfl]; exact List.mem_cons_self⟩)
        rcases ih (some (T.pageToPhys x)) hmoved.short hm with ⟨s', fl', hrun, hrest, hfilled⟩
        refine ⟨s', fl', ?_, hmoved.trans hrest, Or.inr ?_⟩
        · have hcall := h.commonAlloc_run h.pos hpos hfl d
          have hpage :=
            (h.pop h.pos hpos hfl).physToPage_run (m := 0) h.pos (d + 1) (T.pageToPhys x)
          rw [feederRefill]
          simp only [getMgr, Prog.run_bind_gets, hsrc, hlow, if_false, h.root, pageAlloc]
          rw [Prog.run_bind_ok hcall]
          simp only
          rw [Prog.run_bind_ok hpage, T.physToPage_pageToPhys x hman]
          simp only [Prog.run_bind_update, Prog.run_bind_gets]
          rw [← hrun]
          simp [Managers.push, Managers.addTotal, Managers.setMgr, Managers.setLinks]
        · rcases hfilled with rfl | hfilled
          · exact hone
          · exact hfilled

/-- **An allocation through a feeder** moves pages, and then takes one from the feeder or, when that
counts none, from the source; no page was moved then. -/
lemma Short.feederAlloc_run {f : FeederPhysmem} (h : Short T lost s fl) (hm : m < s.count)
    (hm0 : m ≠ 0) (hf : (s.mgr m).v = .feeder f) (hsrc : f.source = 0) (d : ℕ) :
    ∃ s₁ fl₁, Moved T lost s fl s₁ fl₁ ∧ (s₁ = s ∨ 0 < (s₁.mgr m).freePages) ∧
      (physmemPageAlloc T (d + 4) m).run s
        = (commonPhysmemPageAlloc T (d + 2) (if (s₁.mgr m).freePages = 0 then 0 else m)).run s₁ := by
  obtain ⟨s₁, fl₁, hrefill, hmoved, hfilled⟩ :
      ∃ s₁ fl₁, (if (s.mgr m).freePages < wrap32 (f.pagesToKeep + 1) then
          feederRefill T (pageAlloc T (d + 3)) (d + 3) m f
            (wrap32 (sub32 f.pagesToKeep (s.mgr m).freePages + 1)) none
        else pure () : PhysmemProg Unit).run s = .ok ((), s₁) ∧ Moved T lost s fl s₁ fl₁ ∧
          (s₁ = s ∨ 0 < (s₁.mgr m).freePages) := by
    split_ifs
    · exact h.refill_run hsrc hm0 d _ none hm
    · exact ⟨s, fl, rfl, Moved.refl h, Or.inl rfl⟩
  refine ⟨s₁, fl₁, hmoved, hfilled, ?_⟩
  -- the allocation proper, on what the refill left
  have htail : (do
      let p ← getMgr m
      let source ← getMgr f.source
      if 0 < p.freePages then pageAlloc T (d + 3) source.v m
        else pageAlloc T (d + 3) source.v f.source : PhysmemProg _).run s₁
      = (commonPhysmemPageAlloc T (d + 2) (if (s₁.mgr m).freePages = 0 then 0 else m)).run s₁ := by
    simp only [getMgr, Prog.run_bind_gets, hsrc, hmoved.short.root, pos_iff_ne_zero]
    by_cases hempty : (s₁.mgr m).freePages = 0 <;> simp [hempty, pageAlloc]
  simp only [physmemPageAlloc, getMgr, Prog.run_bind_gets, hf, pageAlloc, feederPhysmemPageAlloc]
  rw [Prog.run_bind_ok (asFeeder_run hf)]
  simp only [Prog.run_bind_gets]
  by_cases hshort : (s.mgr m).freePages < wrap32 (f.pagesToKeep + 1)
  · rw [if_pos hshort] at hrefill ⊢
    rw [Prog.run_bind_ok hrefill]
    exact htail
  · rw [if_neg hshort] at hrefill ⊢
    obtain rfl : s = s₁ := by simpa using hrefill
    exact htail

/-- No page is counted where manager `m` looks for one. -/
structure NothingCounted (s : Managers) (m : ℕ) : Prop where
  source : (s.mgr 0).freePages = 0
  own : (s.mgr m).freePages = 0

/-- **An allocation, through any manager**: it fails when no page is counted there, and changes
nothing; or, after some pages were moved, one that is counted is handed out. -/
lemma Short.alloc_cases (h : Short T lost s fl) (hm : m < s.count) (d : ℕ) :
    (NothingCounted s m ∧ (physmemPageAlloc T (d + 4) m).run s = .ok (.error .oom, s)) ∨
      ∃ s₁ fl₁ k x xs, Moved T lost s fl s₁ fl₁ ∧ k < s₁.count ∧ 0 < (s₁.mgr k).freePages ∧
        fl₁ k = x :: xs ∧
        (physmemPageAlloc T (d + 4) m).run s = .ok (.ok (T.pageToPhys x), s₁.pop k x) := by
  obtain ⟨s₁, fl₁, k, e, hmoved, hk, hempty, hrun⟩ : ∃ s₁ fl₁ k e, Moved T lost s fl s₁ fl₁ ∧
      k < s₁.count ∧ ((s₁.mgr k).freePages = 0 → s₁ = s ∧ NothingCounted s m) ∧
      (physmemPageAlloc T (d + 4) m).run s = (commonPhysmemPageAlloc T (e + 2) k).run s₁ := by
    by_cases hm0 : m = 0
    · subst hm0
      refine ⟨s, fl, 0, d + 1, Moved.refl h, hm, fun hzero => ⟨rfl, hzero, hzero⟩, ?_⟩
      simp only [physmemPageAlloc, getMgr, Prog.run_bind_gets, h.root, pageAlloc]
    · rcases h.feeders hm0 hm with ⟨f, hf, hsrc⟩
      rcases h.feederAlloc_run hm hm0 hf hsrc d with ⟨s₁, fl₁, hmoved, hfilled, hrun⟩
      refine ⟨s₁, fl₁, _, d, hmoved, ?_, fun hzero => ?_, hrun⟩
      · split_ifs
        · exact hmoved.short.pos
        · rw [hmoved.count]
          exact hm
      · have hown : (s₁.mgr m).freePages = 0 := by
          by_contra hne
          rw [if_neg hne] at hzero
          exact hne hzero
        rw [if_pos hown] at hzero
        rcases hfilled with rfl | hfilled
        · exact ⟨rfl, hzero, hown⟩
        · omega
  rw [hrun]
  by_cases hzero : (s₁.mgr k).freePages = 0
  · rcases hempty hzero with ⟨rfl, hnone⟩
    exact Or.inl ⟨hnone, commonPhysmemPageAlloc_none hzero⟩
  · have hpos := Nat.pos_of_ne_zero hzero
    rcases hmoved.short.counted hk hpos with ⟨x, xs, hfl⟩
    exact Or.inr ⟨s₁, fl₁, k, x, xs, hmoved, hk, hpos, hfl,
      hmoved.short.commonAlloc_run hk hpos hfl e⟩

/-- An allocation that failed. -/
lemma Short.alloc_error (h : Short T lost s fl) (hm : m < s.count) {e : PhysmemError}
    (hrun : (physmemPageAlloc T (d + 4) m).run s = .ok (.error e, s')) :
    NothingCounted s m ∧ s' = s := by
  rcases h.alloc_cases hm d with ⟨hnone, hrun'⟩ | ⟨s₁, fl₁, k, x, xs, -, -, -, -, hrun'⟩
  · rw [hrun] at hrun'
    exact ⟨hnone, (Prod.mk.inj (Except.ok.inj hrun')).2⟩
  · rw [hrun] at hrun'
    exact absurd (Prod.mk.inj (Except.ok.inj hrun')).1 (by simp)

/-- An allocation that succeeded. -/
lemma Short.alloc_ok (h : Short T lost s fl) (hm : m < s.count) {a : ℕ}
    (hrun : (physmemPageAlloc T (d + 4) m).run s = .ok (.ok a, s')) :
    ∃ s₁ fl₁ k x xs, Moved T lost s fl s₁ fl₁ ∧ k < s₁.count ∧ 0 < (s₁.mgr k).freePages ∧
      fl₁ k = x :: xs ∧ a = T.pageToPhys x ∧ s' = s₁.pop k x := by
  rcases h.alloc_cases hm d with ⟨-, hrun'⟩ | ⟨s₁, fl₁, k, x, xs, hmoved, hk, hpos, hfl, hrun'⟩
  · rw [hrun] at hrun'
    exact absurd (Prod.mk.inj (Except.ok.inj hrun')).1 (by simp)
  · rw [hrun] at hrun'
    rcases Prod.mk.inj (Except.ok.inj hrun') with ⟨ha, hs⟩
    exact ⟨s₁, fl₁, k, x, xs, hmoved, hk, hpos, hfl, Except.ok.inj ha, hs⟩

/-- **A free, through any manager**, pushes the page on some list. -/
lemma Short.free_cases (h : Short T lost s fl) (hm : m < s.count) (d addr : ℕ) :
    ∃ k < s.count, (physmemPageFree T (d + 4) m addr).run s
      = .ok (.ok (), s.push k (T.physToPage addr)) := by
  by_cases hm0 : m = 0
  · subst hm0
    refine ⟨0, hm, ?_⟩
    simp only [physmemPageFree, getMgr, Prog.run_bind_gets, h.root, pageFree]
    exact h.commonFree_run hm (d + 1) addr
  · rcases h.feeders hm0 hm with ⟨f, hf, hsrc⟩
    simp only [physmemPageFree, getMgr, Prog.run_bind_gets, hf, pageFree, feederPhysmemPageFree]
    rw [Prog.run_bind_ok (asFeeder_run hf)]
    simp only [Prog.run_bind_gets, hsrc, h.root]
    by_cases hlow : (s.mgr 0).freePages < f.minFreeSourcePages
    · refine ⟨0, h.pos, ?_⟩
      simp only [if_pos hlow]
      exact Prog.run_bind_ok (h.commonFree_run h.pos d addr)
    · refine ⟨m, hm, ?_⟩
      simp only [if_neg hlow]
      exact Prog.run_bind_ok (h.commonFree_run hm d addr)

end Operations

/-! ## Runs -/

/-- The invariant: with the count corrected, the free lists `fl` and the outstanding pages partition
`pages`. -/
def Shortfall (T : PageTable) (pages : List ℕ) (lost : ℕ) (r : Pool) (fl : ℕ → List ℕ) : Prop :=
  Conserved T pages { r with st := r.st.recount lost } fl

section Runs

variable {T : PageTable} {pages : List ℕ} {lost : ℕ} {r r' : Pool} {fl : ℕ → List ℕ} {d m : ℕ}

lemma Shortfall.conserved (h : Shortfall T pages lost r fl) :
    Conserved T pages { r with st := r.st.recount lost } fl := h

lemma Shortfall.short (h : Shortfall T pages lost r fl) : Short T lost r.st fl := h.conserved.holds

lemma Shortfall.moved {s₁ : Managers} {fl₁ : ℕ → List ℕ} (h : Shortfall T pages lost r fl)
    (hmoved : Moved T lost r.st fl s₁ fl₁) : Shortfall T pages lost { r with st := s₁ } fl₁ :=
  h.conserved.moved hmoved.short.holds hmoved.count hmoved.perm

lemma Shortfall.pop {k x : ℕ} {xs : List ℕ} (h : Shortfall T pages lost r fl)
    (hk : k < r.st.count) (hpos : 0 < (r.st.mgr k).freePages) (hfl : fl k = x :: xs) :
    Shortfall T pages lost { st := r.st.pop k x, out := T.pageToPhys x :: r.out }
      (Function.update fl k xs) := by
  have hpop := h.conserved.pop hk hfl
  rwa [recount_pop fun hk0 => hk0 ▸ hpos] at hpop

lemma Shortfall.push {k addr : ℕ} (h : Shortfall T pages lost r fl) (hk : k < r.st.count)
    (ha : addr ∈ r.out) :
    Shortfall T pages lost { st := r.st.push k (T.physToPage addr), out := r.out.erase addr }
      (Function.update fl k (T.physToPage addr :: fl k)) := by
  have hlen : (allFree r.st.count fl).length + 1 < 2 ^ 32 := by
    have hsplit := h.conserved.perm.length_eq
    have hout := List.length_pos_of_mem ha
    have hsmall := h.conserved.small
    simp only [List.length_append, List.length_map, recount_count] at hsplit
    omega
  have hpush := h.conserved.push hk ha
  rwa [recount_push (h.short.small hlen)] at hpush

/-- **Every step keeps the invariant.** -/
lemma Shortfall.step (h : Shortfall T pages lost r fl) (hs : PoolStep T d r r') :
    ∃ fl', Shortfall T pages lost r' fl' := by
  cases hs with
  | create keep min =>
      have hcreate := h.conserved.create keep min
      rw [recount_create h.short.pos] at hcreate
      exact ⟨_, hcreate⟩
  | alloc hm hrun =>
      rcases h.short.alloc_ok hm hrun with ⟨s₁, fl₁, k, x, xs, hmoved, hk, hpos, hfl, rfl, rfl⟩
      exact ⟨_, (h.moved hmoved).pop hk hpos hfl⟩
  | allocFails hm hrun =>
      rcases h.short.alloc_error hm hrun with ⟨-, rfl⟩
      exact ⟨_, h⟩
  | @free m addr res s' hm ha hrun =>
      rcases h.short.free_cases hm d addr with ⟨k, hk, hrun'⟩
      rw [hrun] at hrun'
      obtain rfl := (Prod.mk.inj (Except.ok.inj hrun')).2
      exact ⟨_, h.push hk ha⟩

/-- A source on its own, whose free list is `pages` and which counts `lost` of them too few. -/
structure IsShortSource (T : PageTable) (pages : List ℕ) (lost : ℕ) (s : Managers) : Prop where
  count : s.count = 1
  common : (s.mgr 0).v = .common
  chain : Chain s.links (.first 0) pages
  freePages : (s.mgr 0).freePages + lost = pages.length
  totalPages_lt : (s.mgr 0).totalPages < 2 ^ 32
  nodup : pages.Nodup
  managed : ∀ p ∈ pages, T.managed p
  small : pages.length < 2 ^ 32

/-- The states of a pool that begins with the managers `s`. -/
def PoolFrom (T : PageTable) (d : ℕ) (s : Managers) : Pool → Prop :=
  Reachable (fun r => r = { st := s, out := [] }) (PoolStep T d)

variable {s : Managers}

lemma IsShortSource.init (h : IsShortSource T pages lost s) :
    Shortfall T pages lost { st := s, out := [] } (Function.update (fun _ => []) 0 pages) := by
  refine Conserved.init ⟨h.count, ?_, h.chain, ?_, ?_, ?_, h.nodup, h.managed⟩ rfl
  · rw [recount_v, h.common]
  · rw [recount_self, h.freePages]
  · rw [recount_self, h.freePages]
    exact h.small
  · rw [recount_totalPages]
    exact h.totalPages_lt

/-- **The invariant holds in every run.** -/
lemma PoolFrom.shortfall (h : IsShortSource T pages lost s) (hr : PoolFrom T d s r) :
    ∃ fl, Shortfall T pages lost r fl := by
  refine Reachable.invariant (I := fun r => ∃ fl, Shortfall T pages lost r fl) ?_ ?_ hr
  · rintro _ rfl
    exact ⟨_, h.init⟩
  · rintro r r' ⟨fl, hr⟩ hs
    exact hr.step hs

lemma Shortfall.out_nodup (h : Shortfall T pages lost r fl) : r.out.Nodup := h.conserved.out_nodup

/-- What is out was on the list of the source. -/
lemma Shortfall.out_mem (h : Shortfall T pages lost r fl) {a : ℕ} (ha : a ∈ r.out) :
    ∃ x ∈ pages, a = T.pageToPhys x := by
  refine ⟨T.physToPage a, ?_, (h.conserved.addr a ha).symm⟩
  exact h.conserved.perm.mem_iff.mp (List.mem_append_left _ (List.mem_map_of_mem ha))

/-- What is out is counted. -/
lemma Shortfall.out_length (h : Shortfall T pages lost r fl) :
    r.out.length + lost ≤ pages.length := by
  have hsplit := h.conserved.perm.length_eq
  have hcount := h.short.freePages_zero
  have hle : (fl 0).length ≤ (allFree r.st.count fl).length := by
    have hfirst := (flatMap_perm_erase (f := fl) (List.mem_range.mpr h.short.pos)).length_eq
    rw [List.length_append] at hfirst
    rw [allFree]
    omega
  simp only [List.length_append, List.length_map, recount_count] at hsplit
  omega

/-- **The pages that are not counted are lost.**  In every run, through any feeders: what is out was
on the list, is out once, and `lost` pages of the list are not out; allocations return, with a page
that is not out or when `lost` pages are all that the source has left; and frees return. -/
theorem IsShortSource.pages_lost (h : IsShortSource T pages lost s) (hr : PoolFrom T d s r) :
    (r.out.Nodup ∧ ∀ a ∈ r.out, ∃ x ∈ pages, a = T.pageToPhys x) ∧
    r.out.length + lost ≤ pages.length ∧
    (∀ m < r.st.count, ∃ res s', (physmemPageAlloc T (d + 4) m).run r.st = .ok (res, s') ∧
      (∀ a, res = .ok a → a ∉ r.out) ∧
      ∀ e, res = .error e → ∃ xs, Chain s'.links (.first 0) xs ∧ xs.length = lost) ∧
    (∀ m < r.st.count, ∀ a ∈ r.out,
      ∃ s', (physmemPageFree T (d + 4) m a).run r.st = .ok (.ok (), s')) := by
  rcases hr.shortfall h with ⟨fl, hinv⟩
  refine ⟨⟨hinv.out_nodup, fun a ha => hinv.out_mem ha⟩, hinv.out_length, fun m hm => ?_,
    fun m hm a ha => ?_⟩
  · rcases hinv.short.alloc_cases hm d with
      ⟨hnone, hrun⟩ | ⟨s₁, fl₁, k, x, xs, hmoved, hk, hpos, hfl, hrun⟩
    · refine ⟨_, _, hrun, fun a ha => absurd ha (by simp), fun e he => ?_⟩
      refine ⟨fl 0, hinv.short.chain hinv.short.pos, ?_⟩
      have hcount := hinv.short.freePages_zero
      rw [hnone.source] at hcount
      omega
    · refine ⟨_, _, hrun, fun a ha => ?_, fun e he => absurd he (by simp)⟩
      obtain rfl := Except.ok.inj ha
      exact hinv.conserved.not_out (hmoved.mem_free hk hfl)
  · rcases hinv.short.free_cases hm d a with ⟨k, -, hrun⟩
    exact ⟨_, hrun⟩

/-- A source hands out the first page of its list, whatever the count is. -/
lemma source_alloc_run {x : ℕ} {xs : List ℕ} (hv : (s.mgr 0).v = .common)
    (hne : (s.mgr 0).freePages ≠ 0) (hchain : Chain s.links (.first 0) (x :: xs)) :
    (physmemPageAlloc T (d + 4) 0).run s = .ok (.ok (T.pageToPhys x), s.pop 0 x) := by
  have hfirst : s.links.lhFirst 0 = some x := hchain.read_eq
  have hconv : (physmemPageToPhys T (d + 3) 0 x).run (s.pop 0 x)
      = .ok (T.pageToPhys x, s.pop 0 x) := by
    simp [physmemPageToPhys, getMgr, hv]
  have hcall : (physmemPageAlloc T (d + 4) 0).run s
      = (commonPhysmemPageAlloc T (d + 3) 0).run s := by
    simp only [physmemPageAlloc, getMgr, Prog.run_bind_gets, hv, pageAlloc]
  rw [hcall]
  simp only [commonPhysmemPageAlloc, getMgr, Prog.run_bind_gets, hne, if_false,
    Prog.run_bind_update, Managers.setMgr_links, hfirst]
  exact Prog.run_bind_ok hconv

/-- A source that counts too many pages gets stuck when they have been handed out. -/
lemma overcounted_stuck (xs : List ℕ) (hcount : r.st.count = 1) (hv : (r.st.mgr 0).v = .common)
    (hchain : Chain r.st.links (.first 0) xs) (hnodup : xs.Nodup)
    (hover : xs.length < (r.st.mgr 0).freePages) (hr : PoolFrom T d s r) :
    ∃ r', PoolFrom T d s r' ∧ r'.st.count = 1 ∧
      r'.out = (xs.map T.pageToPhys).reverse ++ r.out ∧
      (physmemPageAlloc T (d + 4) 0).run r'.st = .error .assertFreelistNotEmpty := by
  induction xs generalizing r with
  | nil =>
      refine ⟨r, hr, hcount, rfl, ?_⟩
      have hfirst : r.st.links.lhFirst 0 = none := hchain.read_eq
      have hne : (r.st.mgr 0).freePages ≠ 0 := by
        simp only [List.length_nil] at hover
        omega
      simp only [physmemPageAlloc, getMgr, Prog.run_bind_gets, hv, pageAlloc, commonPhysmemPageAlloc,
        hne, if_false, Prog.run_bind_update, Managers.setMgr_links, hfirst, Prog.run_fault]
  | cons x xs ih =>
      simp only [List.length_cons] at hover
      have hne : (r.st.mgr 0).freePages ≠ 0 := by omega
      have hrun := source_alloc_run (T := T) (d := d) hv hne hchain
      have hpos : 0 < r.st.count := by omega
      have hv' : ((r.st.pop 0 x).mgr 0).v = .common := by
        rw [Managers.pop_v, hv]
      have hover' : xs.length < ((r.st.pop 0 x).mgr 0).freePages := by
        simp only [Managers.pop, Managers.setLinks_mgr, Managers.setMgr_mgr, Function.update_self]
        omega
      rcases ih (r := { st := r.st.pop 0 x, out := T.pageToPhys x :: r.out }) hcount hv'
        (hchain.removeFirst hnodup) (List.nodup_cons.mp hnodup).2 hover'
        (hr.tail (.alloc hpos hrun)) with ⟨r', hr', hone, hout, hstuck⟩
      refine ⟨r', hr', hone, ?_, hstuck⟩
      rw [hout, List.map_cons, List.reverse_cons, List.append_assoc]
      rfl

end Runs

end Akaris
