import Akaris.Physmem.FreeLists

/-!
# Pages are conserved

A source hands out pages, any number of feeders are created over it, and callers allocate and free
through any of the managers in any order, a page possibly going back through another manager than
the one it came from.  `PoolStep` is that system; its state remembers the addresses that are out
with callers, which no C object does.

The invariant `Conserved` says that the free lists of all managers and the outstanding pages
together are a permutation of the pages the source started with.  Each operation is a pop or a
push, possibly after a refill, so `allFree_pop`, `allFree_push` and `allFree_refilled` are the whole
argument.  The result is `physmem_pages_conserved`.
-/

namespace Akaris

open BsdList

/-- The managers, and the addresses that are out with callers. -/
structure Pool where
  st : Managers
  out : List ℕ

/-- A source physmem on its own: a common manager whose free list is `pages`, converted by the
function table `T`, with 32-bit counters. -/
structure IsSource (T : PageTable) (pages : List ℕ) (s : Managers) : Prop where
  count : s.count = 1
  common : (s.mgr 0).v = .common
  chain : Chain s.links (.first 0) pages
  freePages : (s.mgr 0).freePages = pages.length
  freePages_lt : (s.mgr 0).freePages < 2 ^ 32
  totalPages_lt : (s.mgr 0).totalPages < 2 ^ 32
  nodup : pages.Nodup
  managed : ∀ p ∈ pages, T.managed p

/-- One step of the callers: create a feeder over the source, allocate through some manager, or free
an outstanding address through some manager. -/
inductive PoolStep (T : PageTable) (d : ℕ) : Pool → Pool → Prop
  | create (r : Pool) (keep min : ℕ) :
      PoolStep T d r { r with st := feederPhysmemCreate r.st 0 keep min }
  | alloc {r : Pool} {m addr : ℕ} {s' : Managers} : m < r.st.count →
      (physmemPageAlloc T (d + 4) m).run r.st = .ok (.ok addr, s') →
      PoolStep T d r { st := s', out := addr :: r.out }
  | allocFails {r : Pool} {m : ℕ} {e : PhysmemError} {s' : Managers} : m < r.st.count →
      (physmemPageAlloc T (d + 4) m).run r.st = .ok (.error e, s') →
      PoolStep T d r { r with st := s' }
  | free {r : Pool} {m addr : ℕ} {res : Except PhysmemError Unit} {s' : Managers} :
      m < r.st.count → addr ∈ r.out →
      (physmemPageFree T (d + 4) m addr).run r.st = .ok (res, s') →
      PoolStep T d r { st := s', out := r.out.erase addr }

/-- The states of a pool that starts from a source with the given pages. -/
def PoolReachable (T : PageTable) (pages : List ℕ) (d : ℕ) : Pool → Prop :=
  Reachable (fun r => IsSource T pages r.st ∧ r.out = []) (PoolStep T d)

/-- The invariant: the free lists `fl` and the outstanding pages partition `pages`. -/
structure Conserved (T : PageTable) (pages : List ℕ) (r : Pool) (fl : ℕ → List ℕ) : Prop where
  holds : Holds T r.st fl
  perm : (r.out.map T.physToPage ++ allFree r.st.count fl).Perm pages
  addr : ∀ a ∈ r.out, T.pageToPhys (T.physToPage a) = a
  nodup : pages.Nodup
  managed : ∀ p ∈ pages, T.managed p
  small : pages.length < 2 ^ 32

section Steps

variable {T : PageTable} {pages : List ℕ} {r : Pool} {fl : ℕ → List ℕ} {d m : ℕ}

/-- **An allocation, through any manager**: after a refill that only moves pages, some list is
popped, or that list is empty and the call reports `PHYSMEM_ERR_OOM`. -/
lemma physmemPageAlloc_cases {s : Managers} (h : Holds T s fl) (hm : m < s.count) (d : ℕ) :
    ∃ s₁ fl₁ k, k < s₁.count ∧ Holds T s₁ fl₁ ∧ s₁.count = s.count ∧
      (∀ j, (s₁.mgr j).v = (s.mgr j).v) ∧ (allFree s.count fl₁).Perm (allFree s.count fl) ∧
      ((fl₁ k = [] ∧ (physmemPageAlloc T (d + 4) m).run s = .ok (.error .oom, s₁)) ∨
        ∃ x xs, fl₁ k = x :: xs ∧
          (physmemPageAlloc T (d + 4) m).run s = .ok (.ok (T.pageToPhys x), s₁.pop k x)) := by
  obtain ⟨s₁, fl₁, k, hk, hholds, hcount, hv, hperm, e, hrun⟩ :
      ∃ s₁ fl₁ k, k < s₁.count ∧ Holds T s₁ fl₁ ∧ s₁.count = s.count ∧
        (∀ j, (s₁.mgr j).v = (s.mgr j).v) ∧ (allFree s.count fl₁).Perm (allFree s.count fl) ∧
        ∃ e, (physmemPageAlloc T (d + 4) m).run s
          = (commonPhysmemPageAlloc T (e + 2) k).run s₁ := by
    by_cases hm0 : m = 0
    · subst hm0
      refine ⟨s, fl, 0, hm, h, rfl, fun _ => rfl, List.Perm.refl _, d + 1, ?_⟩
      simp only [physmemPageAlloc, getMgr, Prog.run_bind_gets, h.root, pageAlloc]
    · obtain ⟨f, hf, hsrc⟩ := h.feeders m hm0 hm
      obtain ⟨s₁, hholds, hcount, hv, -, hrun⟩ := feederPhysmemPageAlloc_run h hm hm0 hf hsrc d
      refine ⟨s₁, _, _, ?_, hholds, hcount, hv, ?_, d, hrun⟩
      · rw [hcount]
        split_ifs
        · exact h.pos
        · exact hm
      · exact allFree_refilled h.pos hm hm0 _ fl
  refine ⟨s₁, fl₁, k, hk, hholds, hcount, hv, hperm, ?_⟩
  rw [hrun]
  cases hfl : fl₁ k with
  | nil => exact Or.inl ⟨rfl, commonPhysmemPageAlloc_nil hholds hk hfl _⟩
  | cons x xs => exact Or.inr ⟨x, xs, rfl, commonPhysmemPageAlloc_cons hholds hk hfl _⟩

/-- An allocation changes neither which managers there are nor their function tables. -/
lemma physmemPageAlloc_frame {s s' : Managers} {res : Except PhysmemError ℕ} (h : Holds T s fl)
    (hm : m < s.count) (hrun : (physmemPageAlloc T (d + 4) m).run s = .ok (res, s')) :
    s'.count = s.count ∧ ∀ j, (s'.mgr j).v = (s.mgr j).v := by
  obtain ⟨s₁, fl₁, k, hk, hholds, hcount, hv, -, hcase⟩ := physmemPageAlloc_cases h hm d
  rcases hcase with ⟨-, hrun'⟩ | ⟨x, xs, -, hrun'⟩
  · obtain ⟨-, rfl⟩ : _ = res ∧ s₁ = s' := by simpa [hrun] using hrun'.symm
    exact ⟨hcount, hv⟩
  · obtain ⟨-, rfl⟩ : _ = res ∧ s₁.pop k x = s' := by simpa [hrun] using hrun'.symm
    exact ⟨hcount, by simpa using hv⟩

/-- **A free, through any manager**, pushes the page on some list. -/
lemma physmemPageFree_cases {s : Managers} (h : Holds T s fl) (hm : m < s.count) (d addr : ℕ) :
    ∃ k < s.count, (physmemPageFree T (d + 4) m addr).run s
      = .ok (.ok (), s.push k (T.physToPage addr)) := by
  by_cases hm0 : m = 0
  · subst hm0
    refine ⟨0, hm, ?_⟩
    simp only [physmemPageFree, getMgr, Prog.run_bind_gets, h.root, pageFree]
    exact commonPhysmemPageFree_run h hm (d + 1) addr
  · obtain ⟨f, hf, hsrc⟩ := h.feeders m hm0 hm
    refine ⟨_, ?_, feederPhysmemPageFree_run h hm hf hsrc d addr⟩
    split_ifs
    · exact h.pos
    · exact hm

lemma Conserved.out_nodup (h : Conserved T pages r fl) : r.out.Nodup := by
  have hnd := h.perm.nodup_iff.mpr h.nodup
  exact List.Nodup.of_map _ (List.nodup_append.mp hnd).1

/-- A page that is out is on no list. -/
lemma Conserved.not_free (h : Conserved T pages r fl) {addr : ℕ} (ha : addr ∈ r.out) :
    T.physToPage addr ∉ allFree r.st.count fl := by
  have hnd := h.perm.nodup_iff.mpr h.nodup
  exact (List.disjoint_of_nodup_append hnd) (List.mem_map_of_mem ha)

/-- A page on a list is not out: its address cannot be handed out a second time. -/
lemma Conserved.not_out (h : Conserved T pages r fl) {x : ℕ} (hx : x ∈ allFree r.st.count fl) :
    T.pageToPhys x ∉ r.out := by
  intro hout
  have hfree := h.not_free hout
  rw [T.physToPage_pageToPhys x (h.holds.managed x hx)] at hfree
  exact hfree hx

lemma Conserved.create (h : Conserved T pages r fl) (keep min : ℕ) :
    Conserved T pages { r with st := feederPhysmemCreate r.st 0 keep min }
      (Function.update fl r.st.count []) where
  holds := h.holds.create keep min
  perm := by
    have hcount : (feederPhysmemCreate r.st 0 keep min).count = r.st.count + 1 := rfl
    rw [hcount, allFree_create]
    exact h.perm
  addr := h.addr
  nodup := h.nodup
  managed := h.managed
  small := h.small

/-- Handing a page out moves it from a list to the outstanding ones. -/
lemma Conserved.pop (h : Conserved T pages r fl) {k x : ℕ} {xs : List ℕ} (hk : k < r.st.count)
    (hfl : fl k = x :: xs) :
    Conserved T pages { st := r.st.pop k x, out := T.pageToPhys x :: r.out }
      (Function.update fl k xs) where
  holds := h.holds.pop hk hfl
  perm := by
    have hpop := allFree_pop fl hk hfl
    have hman : T.managed x := h.holds.managed x (hpop.mem_iff.mpr (by simp))
    rw [List.map_cons, T.physToPage_pageToPhys x hman, Managers.pop_count]
    refine List.Perm.trans ?_ h.perm
    exact List.perm_middle.symm.trans (List.Perm.append_left _ hpop.symm)
  addr := by
    intro a ha
    rcases List.mem_cons.mp ha with rfl | ha
    · have hmem : x ∈ allFree r.st.count fl := mem_allFree.mpr ⟨k, hk, by simp [hfl]⟩
      rw [T.physToPage_pageToPhys x (h.holds.managed x hmem)]
    · exact h.addr a ha
  nodup := h.nodup
  managed := h.managed
  small := h.small

/-- Taking a page back moves it from the outstanding ones to a list. -/
lemma Conserved.push (h : Conserved T pages r fl) {k addr : ℕ} (hk : k < r.st.count)
    (ha : addr ∈ r.out) :
    Conserved T pages { st := r.st.push k (T.physToPage addr), out := r.out.erase addr }
      (Function.update fl k (T.physToPage addr :: fl k)) where
  holds := by
    have hmem : T.physToPage addr ∈ pages :=
      h.perm.mem_iff.mp (List.mem_append_left _ (List.mem_map_of_mem ha))
    refine h.holds.push hk (h.not_free ha) (h.managed _ hmem) ?_
    have hlen := h.perm.length_eq
    have hpos := List.length_pos_of_mem ha
    have hsmall := h.small
    rw [List.length_append, List.length_map] at hlen
    omega
  perm := by
    have hpush := allFree_push fl (T.physToPage addr) hk
    have herase := (List.perm_cons_erase ha).map T.physToPage
    rw [List.map_cons] at herase
    refine List.Perm.trans ?_ h.perm
    refine (List.Perm.append_left _ hpush).trans ?_
    exact List.perm_middle.trans (List.Perm.append_right _ herase.symm)
  addr := fun a ha' => h.addr a (List.mem_of_mem_erase ha')
  nodup := h.nodup
  managed := h.managed
  small := h.small

/-- What a refill does is invisible from outside: the invariant holds for the new lists. -/
lemma Conserved.moved (h : Conserved T pages r fl) {s₁ : Managers} {fl₁ : ℕ → List ℕ}
    (hholds : Holds T s₁ fl₁) (hcount : s₁.count = r.st.count)
    (hperm : (allFree r.st.count fl₁).Perm (allFree r.st.count fl)) :
    Conserved T pages { r with st := s₁ } fl₁ where
  holds := hholds
  perm := by
    rw [hcount]
    exact (List.Perm.append_left _ hperm).trans h.perm
  addr := h.addr
  nodup := h.nodup
  managed := h.managed
  small := h.small

lemma Conserved.init (hsrc : IsSource T pages r.st) (hout : r.out = []) :
    Conserved T pages r (Function.update (fun _ => []) 0 pages) := by
  have hall : allFree r.st.count (Function.update (fun _ => []) 0 pages) = pages := by
    simp [allFree, hsrc.count, List.range_succ]
  have hone : ∀ m < r.st.count, m = 0 := fun m hm => by have := hsrc.count; omega
  have hsmall : pages.length < 2 ^ 32 := hsrc.freePages ▸ hsrc.freePages_lt
  refine ⟨?_, ?_, ?_, hsrc.nodup, hsrc.managed, hsmall⟩
  · refine ⟨by simp [hsrc.count], hsrc.common, ?_, ?_, ?_, ?_, ?_, ?_, ?_⟩
    · exact fun m hm0 hm => absurd (hone m hm) hm0
    · intro m hm
      obtain rfl := hone m hm
      simpa using hsrc.chain
    · intro m hm
      obtain rfl := hone m hm
      simpa using hsrc.freePages
    · intro m hm
      obtain rfl := hone m hm
      exact hsrc.totalPages_lt
    · rw [hall]; exact hsrc.nodup
    · rw [hall]; exact hsrc.managed
    · rw [hall]; exact hsmall
  · simp [hout, hall]
  · simp [hout]

/-- **Every step keeps the invariant.** -/
theorem Conserved.step {r' : Pool} (h : Conserved T pages r fl) (hs : PoolStep T d r r') :
    ∃ fl', Conserved T pages r' fl' := by
  cases hs with
  | create keep min => exact ⟨_, h.create keep min⟩
  | alloc hm hrun =>
      obtain ⟨s₁, fl₁, k, hk, hholds, hcount, -, hperm, hcase⟩ :=
        physmemPageAlloc_cases h.holds hm d
      rcases hcase with ⟨-, hrun'⟩ | ⟨x, xs, hfl, hrun'⟩
      · simp [hrun] at hrun'
      · obtain ⟨rfl, rfl⟩ : _ = T.pageToPhys x ∧ _ = s₁.pop k x := by simpa [hrun] using hrun'
        exact ⟨_, (h.moved hholds hcount hperm).pop hk hfl⟩
  | allocFails hm hrun =>
      obtain ⟨s₁, fl₁, k, hk, hholds, hcount, -, hperm, hcase⟩ :=
        physmemPageAlloc_cases h.holds hm d
      rcases hcase with ⟨-, hrun'⟩ | ⟨x, xs, hfl, hrun'⟩
      · obtain ⟨-, rfl⟩ : _ = PhysmemError.oom ∧ _ = s₁ := by simpa [hrun] using hrun'
        exact ⟨_, h.moved hholds hcount hperm⟩
      · simp [hrun] at hrun'
  | @free m addr _ _ hm ha hrun =>
      obtain ⟨k, hk, hrun'⟩ := physmemPageFree_cases h.holds hm d addr
      obtain ⟨-, rfl⟩ : _ = Except.ok () ∧ _ = r.st.push k _ := by simpa [hrun] using hrun'
      exact ⟨_, h.push hk ha⟩

end Steps

variable {T : PageTable} {pages : List ℕ} {r : Pool} {d : ℕ}

theorem PoolReachable.conserved (hr : PoolReachable T pages d r) : ∃ fl, Conserved T pages r fl :=
  Reachable.invariant (I := fun r => ∃ fl, Conserved T pages r fl)
    (fun _ hinit => ⟨_, Conserved.init hinit.1 hinit.2⟩) (fun _ _ ⟨_, h⟩ hs => h.step hs) hr

/-- **Page conservation over whole runs.**  In every state of a pool, the pages the source started
with are, each exactly once, either on the free list of exactly one manager or out with exactly one
caller, and every `free_pages` is the length of its list.  Every allocation returns — the assertion
on the free list does not fire — and never an address that is out, and every free returns. -/
theorem physmem_pages_conserved (hr : PoolReachable T pages d r) :
    (∃ fl : ℕ → List ℕ,
      (∀ m < r.st.count, Chain r.st.links (.first m) (fl m) ∧
        (r.st.mgr m).freePages = (fl m).length) ∧
      (r.out.map T.physToPage ++ allFree r.st.count fl).Perm pages) ∧
    pages.Nodup ∧ r.out.Nodup ∧
    (∀ m < r.st.count, ∃ res s', (physmemPageAlloc T (d + 4) m).run r.st = .ok (res, s') ∧
      ∀ addr, res = .ok addr → addr ∉ r.out) ∧
    (∀ m < r.st.count, ∀ addr ∈ r.out,
      ∃ s', (physmemPageFree T (d + 4) m addr).run r.st = .ok (.ok (), s')) := by
  obtain ⟨fl, h⟩ := hr.conserved
  refine ⟨⟨fl, ?_, h.perm⟩, h.nodup, h.out_nodup, ?_, ?_⟩
  · exact fun m hm => ⟨h.holds.chain m hm, h.holds.freePages m hm⟩
  · intro m hm
    obtain ⟨s₁, fl₁, k, hk, hholds, hcount, -, hperm, hcase⟩ := physmemPageAlloc_cases h.holds hm d
    rcases hcase with ⟨-, hrun⟩ | ⟨x, xs, hfl, hrun⟩
    · exact ⟨_, _, hrun, by simp⟩
    · refine ⟨_, _, hrun, fun addr haddr => ?_⟩
      obtain rfl : T.pageToPhys x = addr := by simpa using haddr
      have hx : x ∈ allFree r.st.count fl₁ :=
        mem_allFree.mpr ⟨k, hcount ▸ hk, by simp [hfl]⟩
      exact h.not_out (hperm.mem_iff.mp hx)
  · intro m hm addr _
    obtain ⟨k, -, hrun⟩ := physmemPageFree_cases h.holds hm d addr
    exact ⟨_, hrun⟩

/-- A common physmem with the conversions of `i686_physmem.c` and pages 1, 2 and 3 free. -/
def threePages : Managers where
  count := 1
  mgr _ := { v := .common, totalPages := 3, freePages := 3 }
  links :=
    { lhFirst := fun _ => some 1
      leNext := fun p => if p = 3 then none else some (p + 1)
      lePrev := fun p => if p = 1 then .first 0 else .next (p - 1) }

lemma threePages_isSource : IsSource i686PageTable [1, 2, 3] threePages where
  count := rfl
  common := rfl
  chain := by simp [Chain, Links.read, threePages]
  freePages := rfl
  freePages_lt := by decide
  totalPages_lt := by decide
  nodup := by decide
  managed := by simp [i686PageTable]

theorem physmem_pages_conserved_feeder :
    ∃ r : Pool, PoolReachable i686PageTable [1, 2, 3] 0 r ∧ r.st.count = 2 ∧ r.out = [8192] ∧
      ∀ m < r.st.count, ∃ res s', (physmemPageAlloc i686PageTable 4 m).run r.st = .ok (res, s') ∧
        ∀ addr, res = .ok addr → addr ∉ r.out := by
  -- a feeder that keeps one page, and one allocation through it
  have h₀ : PoolReachable i686PageTable [1, 2, 3] 0 { st := threePages, out := [] } :=
    .base ⟨threePages_isSource, rfl⟩
  have h₁ := h₀.tail (.create _ 1 0)
  have h₂ := h₁.tail (.alloc (by decide : 1 < 2) rfl)
  exact ⟨_, h₂, rfl, rfl, (physmem_pages_conserved h₂).2.2.2.1⟩

end Akaris
