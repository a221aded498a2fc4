import Akaris.Physmem.Conservation

/-!
# Freeing a page twice

A common physmem on its own, whose callers may free any managed page, outstanding or not.  Nothing
in `common_physmem_page_free` looks whether the page is on the free list already: every free is
answered with `PHYSMEM_SUCCESS` and counted, and linking a page a second time ties the list into a
knot.  Not to free a page twice is left to the callers.

**`frees_are_once`** — no free is ever refused; and as long as no free names a page that is on the
free list, no page is out with two callers and the list is finite and counted by `free_pages`.
-/

namespace Akaris

open BsdList

/-- The page is on the free list of the manager. -/
def FreePage (s : Managers) (p : ℕ) : Prop := ∃ xs, Chain s.links (.first 0) xs ∧ p ∈ xs

/-- One step of the callers of a common physmem: allocate, or free a managed page, which `allowed`
can restrict. -/
inductive CommonStep (T : PageTable) (d : ℕ) (allowed : Managers → ℕ → Prop) : Pool → Pool → Prop
  | alloc {r : Pool} {addr : ℕ} {s' : Managers} :
      (physmemPageAlloc T (d + 4) 0).run r.st = .ok (.ok addr, s') →
      CommonStep T d allowed r { st := s', out := addr :: r.out }
  | allocFails {r : Pool} {e : PhysmemError} {s' : Managers} :
      (physmemPageAlloc T (d + 4) 0).run r.st = .ok (.error e, s') →
      CommonStep T d allowed r { r with st := s' }
  | free {r : Pool} {p : ℕ} {res : Except PhysmemError Unit} {s' : Managers} :
      T.managed p → allowed r.st p →
      (physmemPageFree T (d + 4) 0 (T.pageToPhys p)).run r.st = .ok (res, s') →
      CommonStep T d allowed r { st := s', out := r.out.erase (T.pageToPhys p) }

/-- The states of a common physmem with the given free pages. -/
def CommonReachable (T : PageTable) (pages : List ℕ) (d : ℕ) (allowed : Managers → ℕ → Prop) :
    Pool → Prop :=
  Reachable (fun r => IsSource T pages r.st ∧ r.out = []) (CommonStep T d allowed)

/-- There are fewer pages than a 32-bit counter can count. -/
def FewPages (T : PageTable) : Prop :=
  ∀ xs : List ℕ, xs.Nodup → (∀ p ∈ xs, T.managed p) → xs.length < 2 ^ 32

/-- No page is out twice, and the free list is a list of pages that are not, with `free_pages`
its length. -/
def PagesUnique (T : PageTable) (r : Pool) : Prop :=
  (r.out.map T.physToPage).Nodup ∧
    ∃ xs, Chain r.st.links (.first 0) xs ∧ xs.Nodup ∧ (r.st.mgr 0).freePages = xs.length ∧
      ∀ a ∈ r.out, T.physToPage a ∉ xs

/-- A free of the page, which may be free already, answers `PHYSMEM_SUCCESS` and counts one free page
more. -/
def AnswersSuccess (T : PageTable) (d : ℕ) (s : Managers) (p : ℕ) : Prop :=
  ∃ s', (physmemPageFree T (d + 4) 0 (T.pageToPhys p)).run s = .ok (.ok (), s') ∧
    (s'.mgr 0).freePages = wrap32 ((s.mgr 0).freePages + 1)

/-- A free of the page, should it be free already, is refused and changes nothing. -/
def RefusesDoubleFree (T : PageTable) (d : ℕ) (s : Managers) (p : ℕ) : Prop :=
  FreePage s p →
    (physmemPageFree T (d + 4) 0 (T.pageToPhys p)).run s = .ok (.error .doublefree, s)

/-! ## Nothing is checked -/

section Unchecked

variable {T : PageTable} {pages : List ℕ} {r r' : Pool} {d : ℕ} {s s' : Managers}
  {allowed : Managers → ℕ → Prop}

/-- A free links the page in front, wherever it is linked already. -/
lemma physmemPageFree_common (hv : (s.mgr 0).v = .common) (d addr : ℕ) :
    (physmemPageFree T (d + 4) 0 addr).run s = .ok (.ok (), s.push 0 (T.physToPage addr)) := by
  have hpage : (physmemPhysToPage T (d + 3) 0 addr).run s = .ok (T.physToPage addr, s) := by
    simp only [physmemPhysToPage, getMgr, Prog.run_bind_gets, hv, Prog.run_pure]
  simp only [physmemPageFree, getMgr, Prog.run_bind_gets, hv, pageFree, commonPhysmemPageFree]
  rw [Prog.run_bind_ok hpage]
  rfl

/-- An allocation keeps the functions of the manager, whatever became of its list. -/
lemma physmemPageAlloc_common (hv : (s.mgr 0).v = .common) {res : Except PhysmemError ℕ}
    (hrun : (physmemPageAlloc T (d + 4) 0).run s = .ok (res, s')) :
    (s'.mgr 0).v = .common := by
  simp only [physmemPageAlloc, getMgr, Prog.run_bind_gets, hv, pageAlloc,
    commonPhysmemPageAlloc] at hrun
  split at hrun
  · cases hrun
    exact hv
  · simp only [Prog.run_bind_update, Prog.run_bind_gets] at hrun
    split at hrun
    · cases hrun
    · simp only [Prog.run_bind_update, physmemPageToPhys, getMgr] at hrun
      cases hrun
      simp

/-- Every step keeps the functions of the manager, whatever is freed. -/
lemma CommonStep.common (hv : (r.st.mgr 0).v = .common) (hs : CommonStep T d allowed r r') :
    (r'.st.mgr 0).v = .common := by
  cases hs with
  | alloc hrun => exact physmemPageAlloc_common hv hrun
  | allocFails hrun => exact physmemPageAlloc_common hv hrun
  | free hman hallowed hrun =>
      rw [physmemPageFree_common hv] at hrun
      cases hrun
      simpa [Managers.push] using hv

/-- **Nothing is checked**: every free of every run answers `PHYSMEM_SUCCESS`. -/
lemma CommonReachable.answersSuccess (hr : CommonReachable T pages d allowed r) (p : ℕ) :
    AnswersSuccess T d r.st p := by
  have hv : (r.st.mgr 0).v = .common :=
    Reachable.invariant (I := fun r => (r.st.mgr 0).v = .common)
      (fun _ hinit => hinit.1.common) (fun _ _ h hs => hs.common h) hr
  refine ⟨_, physmemPageFree_common hv d _, ?_⟩
  simp [Managers.push]

end Unchecked

/-! ## The invariant -/

/-- The lists of a manager on its own. -/
def onlyList (xs : List ℕ) : ℕ → List ℕ := Function.update (fun _ => []) 0 xs

/-- The invariant: `xs` is the free list, and what is out is not on it. -/
structure FreeOnce (T : PageTable) (r : Pool) (xs : List ℕ) : Prop where
  holds : Holds T r.st (onlyList xs)
  count : r.st.count = 1
  nodup : (r.out.map T.physToPage ++ xs).Nodup
  addr : ∀ a ∈ r.out, T.pageToPhys (T.physToPage a) = a

section Steps

variable {T : PageTable} {pages xs : List ℕ} {r r' : Pool} {d p : ℕ}
  {allowed : Managers → ℕ → Prop}

@[simp] lemma onlyList_zero (xs : List ℕ) : onlyList xs 0 = xs := Function.update_self ..

lemma update_onlyList (xs ys : List ℕ) : Function.update (onlyList xs) 0 ys = onlyList ys :=
  Function.update_idem ..

lemma allFree_onlyList (xs : List ℕ) : allFree 1 (onlyList xs) = xs := by
  simp [allFree, List.range_succ]

lemma FreeOnce.init (hsrc : IsSource T pages r.st) (hout : r.out = []) : FreeOnce T r pages := by
  have hconserved := Conserved.init hsrc hout
  refine ⟨hconserved.holds, hsrc.count, ?_, ?_⟩
  · rw [hout]
    exact hsrc.nodup
  · simp [hout]

lemma FreeOnce.list (h : FreeOnce T r xs) : Chain r.st.links (.first 0) xs := by
  have hchain := h.holds.chain 0 h.holds.pos
  rwa [onlyList_zero] at hchain

/-- A page is free when it is on the list of the invariant. -/
lemma FreeOnce.freePage_iff (h : FreeOnce T r xs) : FreePage r.st p ↔ p ∈ xs := by
  constructor
  · rintro ⟨ys, hys, hp⟩
    rwa [h.list.unique hys]
  · intro hp
    exact ⟨xs, h.list, hp⟩

lemma FreeOnce.pagesUnique (h : FreeOnce T r xs) : PagesUnique T r := by
  have hnd := List.nodup_append.mp h.nodup
  refine ⟨hnd.1, xs, h.list, hnd.2.1, ?_, ?_⟩
  · have hfree := h.holds.freePages 0 h.holds.pos
    rwa [onlyList_zero] at hfree
  · intro a ha hxs
    exact hnd.2.2 _ (List.mem_map_of_mem ha) _ hxs rfl

/-- An allocation takes the first page of the list, or fails when there is none. -/
lemma FreeOnce.alloc_run (h : FreeOnce T r xs) (d : ℕ) :
    (physmemPageAlloc T (d + 4) 0).run r.st = match xs with
      | [] => .ok (.error .oom, r.st)
      | x :: _ => .ok (.ok (T.pageToPhys x), r.st.pop 0 x) := by
  have hcall : (physmemPageAlloc T (d + 4) 0).run r.st
      = (commonPhysmemPageAlloc T (d + 1 + 2) 0).run r.st := by
    simp only [physmemPageAlloc, getMgr, Prog.run_bind_gets, h.holds.root, pageAlloc]
  rw [hcall]
  cases xs with
  | nil => exact commonPhysmemPageAlloc_nil h.holds h.holds.pos rfl _
  | cons x xs => exact commonPhysmemPageAlloc_cons h.holds h.holds.pos rfl _

lemma FreeOnce.pop {x : ℕ} (h : FreeOnce T r (x :: xs)) :
    FreeOnce T { st := r.st.pop 0 x, out := T.pageToPhys x :: r.out } xs := by
  have hholds := h.holds.pop h.holds.pos (onlyList_zero _)
  have hman : T.managed x := h.holds.managed x (by rw [h.count, allFree_onlyList]; simp)
  have hconv := T.physToPage_pageToPhys x hman
  refine ⟨?_, h.count, ?_, ?_⟩
  · rwa [update_onlyList] at hholds
  · rw [List.map_cons, hconv]
    exact (List.perm_middle.nodup_iff).mp h.nodup
  · intro a ha
    rcases List.mem_cons.mp ha with rfl | ha
    · rw [hconv]
    · exact h.addr a ha

/-- Freeing a page that is not free: it is no longer out, if it was. -/
lemma FreeOnce.push (hfew : FewPages T) (h : FreeOnce T r xs) (hman : T.managed p) (hp : p ∉ xs) :
    FreeOnce T { st := r.st.push 0 p, out := r.out.erase (T.pageToPhys p) } (p :: xs) := by
  have hnd := List.nodup_append.mp h.nodup
  have hall : allFree r.st.count (onlyList xs) = xs := by rw [h.count, allFree_onlyList]
  have hlen : (p :: xs).length < 2 ^ 32 := by
    refine hfew _ (List.nodup_cons.mpr ⟨hp, hnd.2.1⟩) fun q hq => ?_
    rcases List.mem_cons.mp hq with rfl | hq
    · exact hman
    · exact h.holds.managed q (by rwa [hall])
  have hholds := h.holds.push h.holds.pos (by rwa [hall]) hman (by rwa [hall])
  rw [onlyList_zero, update_onlyList] at hholds
  have hout : p ∉ (r.out.erase (T.pageToPhys p)).map T.physToPage := by
    intro hmem
    rcases List.mem_map.mp hmem with ⟨a, ha, rfl⟩
    rw [h.addr a (List.mem_of_mem_erase ha)] at ha
    have hnodup : r.out.Nodup := List.Nodup.of_map _ hnd.1
    exact (hnodup.mem_erase_iff.mp ha).1 rfl
  have hsub : ((r.out.erase (T.pageToPhys p)).map T.physToPage).Sublist
      (r.out.map T.physToPage) := List.erase_sublist.map _
  refine ⟨hholds, h.count, ?_, fun a ha => h.addr a (List.mem_of_mem_erase ha)⟩
  refine List.perm_middle.nodup_iff.mpr (List.nodup_cons.mpr ⟨?_, ?_⟩)
  · rw [List.mem_append, not_or]
    exact ⟨hout, hp⟩
  · exact h.nodup.sublist (hsub.append_right xs)

/-- **Every step keeps the invariant**, when frees name pages that are not free. -/
lemma FreeOnce.step (hfew : FewPages T) (hallowed : ∀ s p, allowed s p → ¬FreePage s p)
    (h : FreeOnce T r xs) (hs : CommonStep T d allowed r r') : ∃ xs', FreeOnce T r' xs' := by
  cases hs with
  | @alloc addr s' hrun =>
      have halloc := h.alloc_run d
      rw [hrun] at halloc
      cases xs with
      | nil => simp at halloc
      | cons x xs =>
          simp only [Except.ok.injEq, Prod.mk.injEq] at halloc
          rcases halloc with ⟨rfl, rfl⟩
          exact ⟨xs, h.pop⟩
  | @allocFails e s' hrun =>
      have halloc := h.alloc_run d
      rw [hrun] at halloc
      cases xs with
      | nil =>
          simp only [Except.ok.injEq, Prod.mk.injEq] at halloc
          rcases halloc with ⟨-, rfl⟩
          exact ⟨[], h⟩
      | cons x xs => simp at halloc
  | @free p res s' hman hfree hrun =>
      rw [physmemPageFree_common h.holds.root d, Except.ok.injEq, Prod.mk.injEq,
        T.physToPage_pageToPhys p hman] at hrun
      rcases hrun with ⟨-, rfl⟩
      exact ⟨p :: xs, h.push hfew hman fun hp => hallowed _ _ hfree (h.freePage_iff.mpr hp)⟩

/-- **Frees are not checked.**  In every state of a run of a common physmem, whatever pages its
callers free, a free of any page, free already or not, answers `PHYSMEM_SUCCESS` and counts one free
page more.  When the callers only free pages that are not on the free list, no page is out with two
callers, and the free list is a finite list without repetition, disjoint from what is out, of which
`free_pages` is the length. -/
theorem frees_are_once (hfew : FewPages T) (hr : CommonReachable T pages d allowed r) :
    (∀ p, AnswersSuccess T d r.st p) ∧
      ((∀ s p, allowed s p → ¬FreePage s p) → PagesUnique T r) := by
  refine ⟨hr.answersSuccess, fun hallowed => ?_⟩
  have hinv : ∃ xs, FreeOnce T r xs :=
    Reachable.invariant (I := fun r => ∃ xs, FreeOnce T r xs)
      (fun _ hinit => ⟨pages, FreeOnce.init hinit.1 hinit.2⟩)
      (fun _ _ h hs => h.elim fun _ h => h.step hfew hallowed hs) hr
  rcases hinv with ⟨xs, h⟩
  exact h.pagesUnique

end Steps

lemma i686PageTable_few : FewPages i686PageTable := by
  intro xs hnd hman
  have hsub : xs.toFinset ⊆ Finset.range (2 ^ 20) := by
    intro p hp
    exact Finset.mem_range.mpr (hman p (List.mem_toFinset.mp hp))
  have hcard := Finset.card_le_card hsub
  rw [List.toFinset_card_of_nodup hnd, Finset.card_range] at hcard
  omega

/-- Three free pages, of which one is allocated and freed again: no page is out twice, and one more
free of page 1 would be answered with success. -/
theorem frees_are_once_three : ∃ r : Pool,
    CommonReachable i686PageTable [1, 2, 3] 0 (fun s p => ¬FreePage s p) r ∧
      (r.st.mgr 0).freePages = 3 ∧ PagesUnique i686PageTable r ∧
        FreePage r.st 1 ∧ AnswersSuccess i686PageTable 0 r.st 1 := by
  have hinv := FreeOnce.init threePages_isSource (r := { st := threePages, out := [] }) rfl
  have h₀ : CommonReachable i686PageTable [1, 2, 3] 0 (fun s p => ¬FreePage s p)
      { st := threePages, out := [] } := .base ⟨threePages_isSource, rfl⟩
  have h₁ := h₀.tail (.alloc rfl)
  have hnot : (1 : ℕ) ∉ [2, 3] := by decide
  have hfree : ¬FreePage (threePages.pop 0 1) 1 := by
    rw [hinv.pop.freePage_iff]
    exact hnot
  have h₂ := h₁.tail (.free (p := 1) (by decide : 1 < 2 ^ 20) hfree rfl)
  have hsafe := frees_are_once i686PageTable_few h₂
  have hinv₂ := hinv.pop.push i686PageTable_few (by decide : 1 < 2 ^ 20) hnot
  exact ⟨_, h₂, rfl, hsafe.2 fun _ _ h => h, hinv₂.freePage_iff.mpr (by decide), hsafe.1 1⟩

/-- The page that heads the free list is freed again and then handed out twice. -/
theorem double_free_duplicates :
    ¬∀ r : Pool, CommonReachable i686PageTable [1, 2, 3] 0 (fun _ _ => True) r →
      PagesUnique i686PageTable r ∧ ∀ p, RefusesDoubleFree i686PageTable 0 r.st p := by
  intro hall
  have h₀ : CommonReachable i686PageTable [1, 2, 3] 0 (fun _ _ => True)
      { st := threePages, out := [] } := .base ⟨threePages_isSource, rfl⟩
  have h₁ := h₀.tail (.free (p := 1) (by decide : 1 < 2 ^ 20) trivial rfl)
  have h₂ := h₁.tail (.alloc rfl)
  have h₃ := h₂.tail (.alloc rfl)
  exact absurd (hall _ h₃).1.1 (by decide)

end Akaris
