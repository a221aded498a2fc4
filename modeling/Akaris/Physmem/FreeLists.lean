import Akaris.Physmem.Defs
import Akaris.Lib.Shelves

/-!
# What the allocators do to their free lists

The abstract view of the managers is one list of pages for each of them.  `Holds T s fl` says that
the memory `s` represents the lists `fl` — the links chain up to `fl m`, every counter is the
length of its list, no page occurs twice anywhere — for a common source and feeders over it.

Every operation of `physmem.c` is then described once, on the lists:

* `commonPhysmemPageAlloc_nil`, `commonPhysmemPageAlloc_cons` — pop one list, or fail;
* `commonPhysmemPageFree_run` — push on one list;
* **`feederRefill_run`** — the refill loop in closed form, `min xfer (source - reserve)` pages;
* `feederPhysmemPageAlloc_run`, `feederPhysmemPageFree_run` — the feeder is a refill followed by
  one of the above.

What the managers share is accounted for by `allFree`, all free pages of all managers: a pop takes
one page out of it and a push adds one (`allFree_pop`, `allFree_push`).
-/

namespace Akaris

open BsdList

/-! ## Lists of lists -/

/-- All free pages of the first `n` managers. -/
def allFree (n : ℕ) (fl : ℕ → List ℕ) : List ℕ := (List.range n).flatMap fl

section AllFree

variable {n m k x : ℕ} {fl : ℕ → List ℕ} {xs : List ℕ}

lemma mem_allFree {p : ℕ} : p ∈ allFree n fl ↔ ∃ m < n, p ∈ fl m := by
  simp [allFree]

/-- Taking the first page off a list takes it out of the free pages. -/
lemma allFree_pop (fl : ℕ → List ℕ) (hm : m < n) (hfl : fl m = x :: xs) :
    (allFree n fl).Perm (x :: allFree n (Function.update fl m xs)) :=
  flatMap_take List.nodup_range (List.mem_range.mpr hm) hfl

/-- Putting a page on a list adds it to the free pages. -/
lemma allFree_push (fl : ℕ → List ℕ) (x : ℕ) (hm : m < n) :
    (allFree n (Function.update fl m (x :: fl m))).Perm (x :: allFree n fl) :=
  flatMap_put List.nodup_range (List.mem_range.mpr hm) x

/-- A manager created with an empty list adds nothing. -/
lemma allFree_create : allFree (n + 1) (Function.update fl n []) = allFree n fl := by
  have h := flatMap_update_of_notMem (f := fl) (l := List.range n) (s := n) (by simp) []
  simp [allFree, List.range_succ, h]

lemma disjoint_of_nodup (hnd : (allFree n fl).Nodup) (hm : m < n) (hk : k < n) (hmk : m ≠ k) :
    ∀ p ∈ fl m, p ∉ fl k :=
  disjoint_of_flatMap_nodup hnd (List.mem_range.mpr hm) (List.mem_range.mpr hk) hmk

lemma nodup_of_allFree (hnd : (allFree n fl).Nodup) (hm : m < n) : (fl m).Nodup :=
  nodup_of_flatMap_nodup hnd (List.mem_range.mpr hm)

end AllFree

/-! ## The memory represents the lists -/

/-- The managers `s` represent the free lists `fl`: manager 0 is a common source, the others are
feeders over it. -/
structure Holds (T : PageTable) (s : Managers) (fl : ℕ → List ℕ) : Prop where
  pos : 0 < s.count
  root : (s.mgr 0).v = .common
  feeders : ∀ m, m ≠ 0 → m < s.count → ∃ f, (s.mgr m).v = .feeder f ∧ f.source = 0
  chain : ∀ m < s.count, Chain s.links (.first m) (fl m)
  freePages : ∀ m < s.count, (s.mgr m).freePages = (fl m).length
  totalPages : ∀ m < s.count, (s.mgr m).totalPages < 2 ^ 32
  nodup : (allFree s.count fl).Nodup
  managed : ∀ p ∈ allFree s.count fl, T.managed p
  small : (allFree s.count fl).length < 2 ^ 32

namespace Managers

/-- The state after a page is taken off the front of a list. -/
def pop (s : Managers) (m x : ℕ) : Managers :=
  (s.setMgr m { s.mgr m with freePages := (s.mgr m).freePages - 1 }).setLinks (s.links.remove x)

/-- The state after a page is put on the front of a list. -/
def push (s : Managers) (m x : ℕ) : Managers :=
  (s.setLinks (s.links.insertHead m x)).setMgr m
    { s.mgr m with freePages := wrap32 ((s.mgr m).freePages + 1) }

/-- One more page counted in `total_pages`. -/
def addTotal (s : Managers) (m : ℕ) : Managers :=
  s.setMgr m { s.mgr m with totalPages := wrap32 ((s.mgr m).totalPages + 1) }

variable {s : Managers} {m x k : ℕ}

@[simp] lemma pop_count : (s.pop m x).count = s.count := rfl
@[simp] lemma push_count : (s.push m x).count = s.count := rfl
@[simp] lemma addTotal_count : (s.addTotal m).count = s.count := rfl

@[simp] lemma pop_v : ((s.pop m x).mgr k).v = (s.mgr k).v := by
  by_cases h : k = m <;> simp [pop, h]

@[simp] lemma push_v : ((s.push m x).mgr k).v = (s.mgr k).v := by
  by_cases h : k = m <;> simp [push, h]

@[simp] lemma addTotal_v : ((s.addTotal m).mgr k).v = (s.mgr k).v := by
  by_cases h : k = m <;> simp [addTotal, h]

@[simp] lemma pop_totalPages : ((s.pop m x).mgr k).totalPages = (s.mgr k).totalPages := by
  by_cases h : k = m <;> simp [pop, h]

@[simp] lemma push_totalPages : ((s.push m x).mgr k).totalPages = (s.mgr k).totalPages := by
  by_cases h : k = m <;> simp [push, h]

lemma addTotal_totalPages : ((s.addTotal m).mgr k).totalPages
    = if k = m then wrap32 ((s.mgr m).totalPages + 1) else (s.mgr k).totalPages := by
  by_cases h : k = m <;> simp [addTotal, h]

end Managers

section Operations

variable {T : PageTable} {s : Managers} {fl : ℕ → List ℕ} {m x : ℕ} {xs : List ℕ}

lemma Holds.pop (h : Holds T s fl) (hm : m < s.count) (hfl : fl m = x :: xs) :
    Holds T (s.pop m x) (Function.update fl m xs) := by
  have hperm := allFree_pop fl hm hfl
  have hchain := h.chain m hm
  have hnd := nodup_of_allFree h.nodup hm
  rw [hfl] at hchain hnd
  have hcons := hperm.nodup_iff.mp h.nodup
  exact
    { pos := h.pos
      root := by simpa using h.root
      feeders := by simpa using h.feeders
      chain := by
        intro k hk
        change Chain (s.links.remove x) (.first k) _
        by_cases hkm : k = m
        · subst hkm
          rw [Function.update_self]
          exact hchain.removeFirst hnd
        · rw [Function.update_of_ne hkm]
          have hdisj := disjoint_of_nodup h.nodup hk hm hkm
          refine (h.chain k hk).removeFirst_frame hkm hchain hnd fun y hy hyxs => ?_
          exact hdisj y hy (by simp [hfl, hyxs])
      freePages := by
        intro k hk
        have hlen := h.freePages k hk
        by_cases hkm : k = m
        · subst hkm
          simp [Managers.pop, hlen, hfl]
        · simp [Managers.pop, Function.update_of_ne hkm, hlen]
      totalPages := by simpa using h.totalPages
      nodup := (List.nodup_cons.mp hcons).2
      managed := fun p hp => h.managed p (hperm.mem_iff.mpr (List.mem_cons_of_mem _ hp))
      small := by
        have hlen := hperm.length_eq
        have hsmall := h.small
        simp only [List.length_cons] at hlen
        simp only [Managers.pop_count]
        omega }

lemma Holds.push (h : Holds T s fl) (hm : m < s.count) (hx : x ∉ allFree s.count fl)
    (hman : T.managed x) (hlen : (allFree s.count fl).length + 1 < 2 ^ 32) :
    Holds T (s.push m x) (Function.update fl m (x :: fl m)) := by
  have hperm := allFree_push fl x hm
  have hnot : ∀ k < s.count, x ∉ fl k := fun k hk hxk => hx (mem_allFree.mpr ⟨k, hk, hxk⟩)
  exact
    { pos := h.pos
      root := by simpa using h.root
      feeders := by simpa using h.feeders
      chain := by
        intro k hk
        change Chain (s.links.insertHead m x) (.first k) _
        by_cases hkm : k = m
        · subst hkm
          rw [Function.update_self]
          exact (h.chain k hk).insertHead (nodup_of_allFree h.nodup hk) (hnot k hk)
        · rw [Function.update_of_ne hkm]
          refine (h.chain k hk).insertHead_frame hkm (hnot k hk) fun y hy hyk => ?_
          have hyhead : (fl m).head? = some y := (h.chain m hm).read_eq.symm.trans hy
          exact disjoint_of_nodup h.nodup hk hm hkm y hyk (List.mem_of_mem_head? hyhead)
      freePages := by
        intro k hk
        have hfree := h.freePages k hk
        by_cases hkm : k = m
        · subst hkm
          have hle : (fl k).length ≤ (allFree s.count fl).length := by
            have hlen := (flatMap_perm_erase (f := fl) (List.mem_range.mpr hm)).length_eq
            rw [List.length_append] at hlen
            rw [allFree]
            omega
          have hwrap : wrap32 ((fl k).length + 1) = (fl k).length + 1 := wrap32_of_lt (by omega)
          simp [Managers.push, hfree, hwrap]
        · simp [Managers.push, Function.update_of_ne hkm, hfree]
      totalPages := by simpa using h.totalPages
      nodup := hperm.nodup_iff.mpr (List.nodup_cons.mpr ⟨hx, h.nodup⟩)
      managed := by
        intro p hp
        rcases List.mem_cons.mp (hperm.mem_iff.mp hp) with rfl | hp
        · exact hman
        · exact h.managed p hp
      small := by
        rw [Managers.push_count, hperm.length_eq, List.length_cons]
        exact hlen }

lemma Holds.addTotal (h : Holds T s fl) : Holds T (s.addTotal m) fl where
  pos := h.pos
  root := by simpa using h.root
  feeders := by simpa using h.feeders
  chain := h.chain
  freePages := by
    intro k hk
    have hfree := h.freePages k hk
    by_cases hkm : k = m
    · subst hkm
      simpa [Managers.addTotal] using hfree
    · simpa [Managers.addTotal, Function.update_of_ne hkm] using hfree
  totalPages := by
    intro k hk
    rw [Managers.addTotal_totalPages]
    split_ifs
    · exact wrap32_lt _
    · exact h.totalPages k hk
  nodup := h.nodup
  managed := h.managed
  small := h.small

/-- `feeder_physmem_create` over the source adds a manager with an empty list. -/
theorem Holds.create (h : Holds T s fl) (keep min : ℕ) :
    Holds T (feederPhysmemCreate s 0 keep min) (Function.update fl s.count []) := by
  have hcount : (feederPhysmemCreate s 0 keep min).count = s.count + 1 := rfl
  have hmgr : ∀ k < s.count, (feederPhysmemCreate s 0 keep min).mgr k = s.mgr k := fun k hk =>
    Function.update_of_ne (Nat.ne_of_lt hk) _ _
  have hnew : (feederPhysmemCreate s 0 keep min).mgr s.count
      = { v := .feeder { source := 0, pagesToKeep := keep, minFreeSourcePages := min }
          totalPages := 0, freePages := 0 } := Function.update_self ..
  exact
    { pos := Nat.succ_pos _
      root := by rw [hmgr 0 h.pos]; exact h.root
      feeders := by
        intro m hm0 hm
        rcases Nat.lt_succ_iff_lt_or_eq.mp hm with hm | rfl
        · rw [hmgr m hm]; exact h.feeders m hm0 hm
        · exact ⟨_, by rw [hnew], rfl⟩
      chain := by
        intro m hm
        rcases Nat.lt_succ_iff_lt_or_eq.mp hm with hm | rfl
        · have hne : m ≠ s.count := Nat.ne_of_lt hm
          rw [Function.update_of_ne hne]
          refine Chain.congr (L := s.links) ?_ (fun _ _ => rfl) (fun _ _ => rfl) (h.chain m hm)
          simp [feederPhysmemCreate, Links.listInit, Links.write, Links.read, hne]
        · rw [Function.update_self]
          exact Chain.listInit _ _
      freePages := by
        intro m hm
        rcases Nat.lt_succ_iff_lt_or_eq.mp hm with hm | rfl
        · rw [hmgr m hm, Function.update_of_ne (Nat.ne_of_lt hm)]
          exact h.freePages m hm
        · simp [hnew]
      totalPages := by
        intro m hm
        rcases Nat.lt_succ_iff_lt_or_eq.mp hm with hm | rfl
        · rw [hmgr m hm]; exact h.totalPages m hm
        · simp [hnew]
      nodup := by rw [hcount, allFree_create]; exact h.nodup
      managed := by rw [hcount, allFree_create]; exact h.managed
      small := by rw [hcount, allFree_create]; exact h.small }

/-! ## The code, run on the lists -/

lemma physmemPhysToPage_run (h : Holds T s fl) (hm : m < s.count) (d addr : ℕ) :
    (physmemPhysToPage T (d + 2) m addr).run s = .ok (T.physToPage addr, s) := by
  by_cases hm0 : m = 0
  · subst hm0
    simp [physmemPhysToPage, getMgr, h.root]
  · obtain ⟨f, hf, hsrc⟩ := h.feeders m hm0 hm
    simp [physmemPhysToPage, getMgr, hf, hsrc, h.root]

lemma physmemPageToPhys_run (h : Holds T s fl) (hm : m < s.count) (d page : ℕ) :
    (physmemPageToPhys T (d + 2) m page).run s = .ok (T.pageToPhys page, s) := by
  by_cases hm0 : m = 0
  · subst hm0
    simp [physmemPageToPhys, getMgr, h.root]
  · obtain ⟨f, hf, hsrc⟩ := h.feeders m hm0 hm
    simp [physmemPageToPhys, getMgr, hf, hsrc, h.root]

lemma asFeeder_run {f : FeederPhysmem} (hf : (s.mgr m).v = .feeder f) :
    (asFeeder m).run s = .ok (f, s) := by
  simp [asFeeder, getMgr, hf]

/-- Allocating from an empty list reports `PHYSMEM_ERR_OOM` and changes nothing. -/
theorem commonPhysmemPageAlloc_nil (h : Holds T s fl) (hm : m < s.count) (hfl : fl m = []) (d : ℕ) :
    (commonPhysmemPageAlloc T d m).run s = .ok (.error .oom, s) := by
  have hfree : (s.mgr m).freePages = 0 := by rw [h.freePages m hm, hfl]; rfl
  simp [commonPhysmemPageAlloc, getMgr, hfree]

/-- Allocating from a non-empty list returns the address of its first page; the assertion that the
list is not empty holds because the counter is its length. -/
theorem commonPhysmemPageAlloc_cons (h : Holds T s fl) (hm : m < s.count) (hfl : fl m = x :: xs)
    (d : ℕ) :
    (commonPhysmemPageAlloc T (d + 2) m).run s = .ok (.ok (T.pageToPhys x), s.pop m x) := by
  have hfree : (s.mgr m).freePages ≠ 0 := by rw [h.freePages m hm, hfl]; simp
  have hfirst : s.links.lhFirst m = some x := by
    have hread := (h.chain m hm).read_eq
    rw [hfl] at hread
    exact hread
  have hconv := physmemPageToPhys_run (h.pop hm hfl) hm d x
  simp only [commonPhysmemPageAlloc, getMgr, Prog.run_bind_gets, hfree, if_false,
    Prog.run_bind_update, Managers.setMgr_links, hfirst]
  exact Prog.run_bind_ok hconv

/-- Freeing a page that is on no list puts it on the manager's. -/
theorem commonPhysmemPageFree_run (h : Holds T s fl) (hm : m < s.count) (d addr : ℕ) :
    (commonPhysmemPageFree T (d + 2) m addr).run s
      = .ok (.ok (), s.push m (T.physToPage addr)) := by
  rw [commonPhysmemPageFree, Prog.run_bind_ok (physmemPhysToPage_run h hm d addr)]
  rfl

/-- The lists after the feeder took `k` pages from the front of the source list, one at a time. -/
def refilled (fl : ℕ → List ℕ) (m k : ℕ) : ℕ → List ℕ :=
  Function.update (Function.update fl 0 ((fl 0).drop k)) m (((fl 0).take k).reverse ++ fl m)

lemma refilled_zero : refilled fl m 0 = fl := by
  simp [refilled]

lemma refilled_succ (hm0 : m ≠ 0) (hfl : fl 0 = x :: xs) (k : ℕ) :
    refilled (Function.update (Function.update fl 0 xs) m (x :: fl m)) m k
      = refilled fl m (k + 1) := by
  funext j
  by_cases hjm : j = m
  · subst hjm
    simp [refilled, hfl, Ne.symm hm0, Function.update_of_ne]
  · by_cases hj0 : j = 0
    · subst hj0
      simp [refilled, hfl, Ne.symm hm0, Function.update_of_ne]
    · simp [refilled, hjm, hj0, Function.update_of_ne]

/-- **The refill loop.**  It moves pages from the source to the feeder until it has moved the number
asked for or the source is down to its reserve, and it counts every one of them. -/
theorem feederRefill_run {f : FeederPhysmem} (hsrc : f.source = 0) (hm0 : m ≠ 0) (d n : ℕ) :
    ∀ (s : Managers) (fl : ℕ → List ℕ) (newaddr : Option ℕ), Holds T s fl → m < s.count →
      let k := min n ((fl 0).length - f.minFreeSourcePages)
      ∃ s', (feederRefill T (pageAlloc T (d + 3)) (d + 3) m f n newaddr).run s = .ok ((), s') ∧
        Holds T s' (refilled fl m k) ∧ s'.count = s.count ∧
        (∀ j, (s'.mgr j).v = (s.mgr j).v) ∧
        (s'.mgr m).totalPages = wrap32 ((s.mgr m).totalPages + k) := by
  induction n with
  | zero =>
      intro s fl newaddr h hm
      have htotal := wrap32_of_lt (h.totalPages m hm)
      refine ⟨s, rfl, ?_, rfl, fun _ => rfl, ?_⟩
      · simpa [refilled_zero] using h
      · simpa using htotal.symm
  | succ n ih =>
      intro s fl newaddr h hm k
      have hpos := h.pos
      have hfree := h.freePages 0 hpos
      by_cases hlow : (fl 0).length ≤ f.minFreeSourcePages
      · -- the source is down to its reserve: the loop breaks
        have hk : k = 0 := by simp only [k]; omega
        have htotal := wrap32_of_lt (h.totalPages m hm)
        refine ⟨s, ?_, ?_, rfl, fun _ => rfl, ?_⟩
        · simp [feederRefill, getMgr, hsrc, hfree, hlow]
        · simpa [hk, refilled_zero] using h
        · simpa [hk] using htotal.symm
      · obtain ⟨x, xs, hfl⟩ : ∃ x xs, fl 0 = x :: xs := by
          cases hcase : fl 0 with
          | nil => simp [hcase] at hlow
          | cons x xs => exact ⟨x, xs, rfl⟩
        have hperm := allFree_pop fl hpos hfl
        have hx := (List.nodup_cons.mp (hperm.nodup_iff.mp h.nodup)).1
        have hman : T.managed x := h.managed x (hperm.mem_iff.mpr (by simp))
        have hconv := T.physToPage_pageToPhys x hman
        have hlen : (allFree s.count (Function.update fl 0 xs)).length + 1 < 2 ^ 32 := by
          have hsmall := h.small
          rwa [hperm.length_eq, List.length_cons] at hsmall
        -- one round: pop the source, push on the feeder, count the page
        have hpop := h.pop hpos hfl
        have hpush := (hpop.push (m := m) hm hx hman hlen).addTotal (m := m)
        rw [Function.update_of_ne hm0] at hpush
        obtain ⟨s', hrun, hholds, hcount, hv, htotal⟩ := ih (((s.pop 0 x).push m x).addTotal m)
          (Function.update (Function.update fl 0 xs) m (x :: fl m)) (some (T.pageToPhys x))
          hpush hm
        have hlen0 : (Function.update (Function.update fl 0 xs) m (x :: fl m) 0).length
            = xs.length := by
          simp [Function.update_of_ne (Ne.symm hm0)]
        rw [hlen0] at hholds htotal
        have hk : k = min n (xs.length - f.minFreeSourcePages) + 1 := by
          simp only [k, hfl, List.length_cons] at hlow ⊢
          omega
        refine ⟨s', ?_, ?_, hcount, ?_, ?_⟩
        · rw [feederRefill]
          have hcall := commonPhysmemPageAlloc_cons h hpos hfl d
          have hpage := physmemPhysToPage_run hpop (m := 0) hpos (d + 1) (T.pageToPhys x)
          simp only [getMgr, Prog.run_bind_gets, hsrc, hfree, hlow, if_false, h.root, pageAlloc]
          rw [Prog.run_bind_ok hcall]
          simp only
          rw [Prog.run_bind_ok hpage, hconv]
          simp only [Prog.run_bind_update, Prog.run_bind_gets]
          rw [← hrun]
          simp [Managers.push, Managers.addTotal, Managers.setMgr, Managers.setLinks]
        · rw [hk, ← refilled_succ hm0 hfl]
          exact hholds
        · intro j
          rw [hv j]
          simp
        · rw [htotal, Managers.addTotal_totalPages, if_pos rfl, hk]
          simp only [Managers.push_totalPages, Managers.pop_totalPages, wrap32]
          omega

/-- A refill moves pages between lists; it neither loses nor duplicates one. -/
lemma allFree_refilled (hpos : 0 < s.count) (hm : m < s.count) (hm0 : m ≠ 0) (k : ℕ) :
    ∀ fl : ℕ → List ℕ, (allFree s.count (refilled fl m k)).Perm (allFree s.count fl) := by
  induction k with
  | zero => intro fl; rw [refilled_zero]
  | succ k ih =>
      intro fl
      cases hfl : fl 0 with
      | nil =>
          have hsame : refilled fl m (k + 1) = fl := by
            have h0 : Function.update fl 0 [] = fl := by rw [← hfl, Function.update_eq_self]
            simp [refilled, hfl, h0]
          rw [hsame]
      | cons x xs =>
          rw [← refilled_succ hm0 hfl]
          refine (ih _).trans ?_
          have hpush := allFree_push (Function.update fl 0 xs) x hm
          rw [Function.update_of_ne hm0] at hpush
          exact hpush.trans (allFree_pop fl hpos hfl).symm

/-- How many pages an allocation through feeder `m` pulls from the source first. -/
def refillCount (f : FeederPhysmem) (fl : ℕ → List ℕ) (m : ℕ) : ℕ :=
  if (fl m).length < wrap32 (f.pagesToKeep + 1) then
    min (wrap32 (sub32 f.pagesToKeep (fl m).length + 1)) ((fl 0).length - f.minFreeSourcePages)
  else 0

/-- **A feeder allocation** is a refill followed by a plain allocation, from the feeder if it has a
page then and from the source otherwise. -/
theorem feederPhysmemPageAlloc_run {f : FeederPhysmem} (h : Holds T s fl) (hm : m < s.count)
    (hm0 : m ≠ 0) (hf : (s.mgr m).v = .feeder f) (hsrc : f.source = 0) (d : ℕ) :
    let fl₁ := refilled fl m (refillCount f fl m)
    ∃ s₁, Holds T s₁ fl₁ ∧ s₁.count = s.count ∧ (∀ j, (s₁.mgr j).v = (s.mgr j).v) ∧
      (s₁.mgr m).totalPages = wrap32 ((s.mgr m).totalPages + refillCount f fl m) ∧
      (physmemPageAlloc T (d + 4) m).run s
        = (commonPhysmemPageAlloc T (d + 2) (if fl₁ m = [] then 0 else m)).run s₁ := by
  intro fl₁
  -- the refill, if the feeder is short of pages
  obtain ⟨s₁, hrefill, hholds, hcount, hv, htotal⟩ :
      ∃ s₁, (if (s.mgr m).freePages < wrap32 (f.pagesToKeep + 1) then
          feederRefill T (pageAlloc T (d + 3)) (d + 3) m f
            (wrap32 (sub32 f.pagesToKeep (s.mgr m).freePages + 1)) none
        else pure () : PhysmemProg Unit).run s = .ok ((), s₁) ∧
        Holds T s₁ fl₁ ∧ s₁.count = s.count ∧ (∀ j, (s₁.mgr j).v = (s.mgr j).v) ∧
        (s₁.mgr m).totalPages = wrap32 ((s.mgr m).totalPages + refillCount f fl m) := by
    by_cases hshort : (fl m).length < wrap32 (f.pagesToKeep + 1)
    · obtain ⟨s₁, h1, h2, h3, h4, h5⟩ := feederRefill_run hsrc hm0 d
        (wrap32 (sub32 f.pagesToKeep (fl m).length + 1)) s fl none h hm
      have hcnt : refillCount f fl m = min (wrap32 (sub32 f.pagesToKeep (fl m).length + 1))
          ((fl 0).length - f.minFreeSourcePages) := if_pos hshort
      rw [← hcnt] at h2 h5
      refine ⟨s₁, ?_, h2, h3, h4, h5⟩
      rw [h.freePages m hm, if_pos hshort]
      exact h1
    · have hcnt : refillCount f fl m = 0 := if_neg hshort
      refine ⟨s, ?_, ?_, rfl, fun _ => rfl, ?_⟩
      · rw [h.freePages m hm, if_neg hshort]
        rfl
      · simpa [fl₁, hcnt, refilled_zero] using h
      · rw [hcnt, Nat.add_zero, wrap32_of_lt (h.totalPages m hm)]
  refine ⟨s₁, hholds, hcount, hv, htotal, ?_⟩
  -- the allocation proper, on what the refill left
  have htail : (do
      let p ← getMgr m
      let source ← getMgr f.source
      if 0 < p.freePages then pageAlloc T (d + 3) source.v m
        else pageAlloc T (d + 3) source.v f.source : PhysmemProg _).run s₁
      = (commonPhysmemPageAlloc T (d + 2) (if fl₁ m = [] then 0 else m)).run s₁ := by
    have hfree := hholds.freePages m (hcount ▸ hm)
    simp only [getMgr, Prog.run_bind_gets, hsrc, hholds.root, hfree, List.length_pos_iff]
    by_cases hempty : fl₁ m = [] <;> simp [hempty, pageAlloc]
  simp only [physmemPageAlloc, getMgr, Prog.run_bind_gets, hf, pageAlloc, feederPhysmemPageAlloc]
  rw [Prog.run_bind_ok (asFeeder_run hf)]
  simp only [Prog.run_bind_gets]
  by_cases hshort : (s.mgr m).freePages < wrap32 (f.pagesToKeep + 1)
  · rw [if_pos hshort] at hrefill ⊢
    rw [Prog.run_bind_ok hrefill]
    exact htail
  · rw [if_neg hshort] at hrefill ⊢
    obtain rfl : s = s₁ := by simpa using hrefill
    exact htail

/-- **A feeder free** pushes the page on the source while that is below the feeder's watermark, and
on the feeder otherwise. -/
theorem feederPhysmemPageFree_run {f : FeederPhysmem} (h : Holds T s fl) (hm : m < s.count)
    (hf : (s.mgr m).v = .feeder f) (hsrc : f.source = 0) (d addr : ℕ) :
    (physmemPageFree T (d + 4) m addr).run s
      = .ok (.ok (), s.push (if (fl 0).length < f.minFreeSourcePages then 0 else m)
          (T.physToPage addr)) := by
  have hfree := h.freePages 0 h.pos
  have hcall : ∀ k < s.count, (pageFree T (d + 3) .common k addr).run s
      = .ok (.ok (), s.push k (T.physToPage addr)) := fun k hk =>
    commonPhysmemPageFree_run h hk d addr
  simp only [physmemPageFree, getMgr, Prog.run_bind_gets, hf, pageFree, feederPhysmemPageFree]
  rw [Prog.run_bind_ok (asFeeder_run hf)]
  simp only [Prog.run_bind_gets, hsrc, hfree, h.root]
  by_cases hlow : (fl 0).length < f.minFreeSourcePages
  · simp only [if_pos hlow]
    exact Prog.run_bind_ok (hcall 0 h.pos)
  · simp only [if_neg hlow]
    exact Prog.run_bind_ok (hcall m hm)

end Operations

end Akaris
