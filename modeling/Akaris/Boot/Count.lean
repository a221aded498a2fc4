import Akaris.Boot.Prune
import Akaris.Physmem.Shortfall

/-!
# The allocator after booting

`boot_count_iff` says that the count of the boot allocator is wrong whenever pages were pruned.  Here
is what follows for all that is done with it afterwards, by any number of feeders and callers.

* **`boot_allocator_safe_iff`** — no allocation ever gets stuck in the assertion on the free list if
  and only if no more pages were pruned than had been counted; if more were, the count has wrapped
  around, and the assertion fails when the list has been handed out.
* **`boot_pages_lost`** — and then the pages that were deducted without having been counted, the 256
  below 1 MiB among them, are made up for by pages of the list that are never handed out.
-/

namespace Akaris

open BsdList Prog

/-- The number of pages that `i686_create_initial` counts. -/
def countedPages (entries : List MemoryMapEntry) : ℕ :=
  ((entries.flatMap listed).filter (¬ LowPage ·)).length

section Count

variable {stray : ℕ → BootProg Unit} {entries : List MemoryMapEntry} {ebss d : ℕ} {s' : Boot}
  {s : Managers} {r : Pool}

/-- Some managers are the booted ones. -/
lemma exists_represents {p : I686Physmem} (hnodup : p.freelist.Nodup) :
    ∃ s : Managers, Represents s p := by
  have hlinks : ∀ xs : List ℕ, xs.Nodup → ∃ L : Links ℕ ℕ, Chain L (.first 0) xs := by
    intro xs
    induction xs with
    | nil =>
        intro _
        let L : Links ℕ ℕ := ⟨fun _ => none, fun _ => none, fun _ => .first 0⟩
        exact ⟨_, Chain.listInit L 0⟩
    | cons x xs ih =>
        intro hnd
        rcases List.nodup_cons.mp hnd with ⟨hx, hnd'⟩
        rcases ih hnd' with ⟨L, hL⟩
        exact ⟨_, hL.insertHead hnd' hx⟩
  rcases hlinks _ hnodup with ⟨L, hL⟩
  exact ⟨⟨1, fun _ => ⟨.common, 0, p.freePages⟩, L⟩, rfl, rfl, hL, rfl, by norm_num⟩

/-- How the count and the length of the list compare: `below` pages of the list were pruned. -/
lemma Booted.counts (hdisj : PagesDisjoint entries) (h : Booted ebss entries s') :
    ∃ below, s'.physmem.freelist.length + below = countedPages entries ∧
      below + min 256 (prunedPages (bootLimit ebss entries))
        ≤ prunedPages (bootLimit ebss entries) ∧
      s'.physmem.freePages
        = sub32 (countedPages entries) (prunedPages (bootLimit ebss entries)) ∧
      countedPages entries < 2 ^ 32 := by
  set n := prunedPages (bootLimit ebss entries) with hn
  set l := (entries.flatMap listed).filter (¬ LowPage ·) with hl
  have hnodup : l.Nodup := hdisj.nodup.filter _
  have hlt : ∀ page ∈ l, page < 2 ^ 20 := by
    intro page hpage
    rw [hl, List.mem_filter, mem_flatMap_listed] at hpage
    exact inRegion_lt hpage.1
  have hlen : l.length < 2 ^ 32 := i686PageTable_few l hnodup hlt
  have hsplit : (l.filter fun p => n ≤ p).length + (l.filter fun p => ¬n ≤ p).length
      = l.length := by
    rw [← List.length_append]
    simpa only [decide_not] using (List.filter_append_perm (fun p => decide (n ≤ p)) l).length_eq
  -- the pages of the list that were pruned are none of the first 256
  have hbelow : (l.filter fun p => ¬n ≤ p).length ≤ n - 256 := by
    have hsub : (l.filter fun p => ¬n ≤ p).toFinset ⊆ Finset.Ico 256 n := by
      intro p hp
      rw [List.mem_toFinset, List.mem_filter, decide_eq_true_eq] at hp
      have hp20 := hlt p hp.1
      have hhigh : ¬LowPage p := by
        have hp' := hp.1
        rw [hl, List.mem_filter, decide_eq_true_eq] at hp'
        exact hp'.2
      rw [lowPage_iff hp20, pageSize] at hhigh
      rw [Finset.mem_Ico]
      omega
    have hcard := Finset.card_le_card hsub
    rwa [List.toFinset_card_of_nodup (hnodup.filter _), Nat.card_Ico] at hcard
  refine ⟨(l.filter fun p => ¬n ≤ p).length, ?_, by omega, ?_, hlen⟩
  · have hfree : s'.physmem.freelist.length = (l.filter fun p => n ≤ p).length := by
      rw [h.free, ← hl, ← hn, List.filter_reverse, List.length_reverse]
    rw [hfree, hsplit]
    rfl
  · have hcount : s'.physmem.freePages = sub32 (wrap32 l.length) n := h.freePages
    rw [hcount, wrap32_of_lt hlen]
    rfl

/-- The booted allocator, when no more pages were pruned than counted. -/
lemma Booted.isShortSource (hdisj : PagesDisjoint entries) (h : Booted ebss entries s')
    (hle : prunedPages (bootLimit ebss entries) ≤ countedPages entries)
    (hs : Represents s s'.physmem) :
    s'.physmem.freePages ≤ s'.physmem.freelist.length ∧
    IsShortSource i686PageTable s'.physmem.freelist
      (s'.physmem.freelist.length - s'.physmem.freePages) s := by
  rcases h.counts hdisj with ⟨below, hlen, hbelow, hcount, hsmall⟩
  rw [sub32_of_le hle hsmall] at hcount
  have hfree : s'.physmem.freePages ≤ s'.physmem.freelist.length := by omega
  refine ⟨hfree, hs.count, hs.common, hs.chain, ?_, hs.totalPages_lt, h.nodup hdisj,
    fun page hpage => inRegion_lt (h.mem_freelist.mp hpage).1, by omega⟩
  rw [hs.freePages]
  omega

/-- When more pages were pruned than counted, the count wraps around, and the assertion on the free
list fails once all pages have been handed out. -/
lemma Booted.stuck (hdisj : PagesDisjoint entries) (h : Booted ebss entries s')
    (hgt : countedPages entries < prunedPages (bootLimit ebss entries)) :
    s'.physmem.freelist.length < s'.physmem.freePages ∧
      s'.physmem.freePages = 2 ^ 32 + countedPages entries - prunedPages (bootLimit ebss entries) ∧
      ∀ s, Represents s s'.physmem → ∃ r, PoolFrom i686PageTable 0 s r ∧ r.st.count = 1 ∧
        r.out = (s'.physmem.freelist.map i686PageTable.pageToPhys).reverse ∧
        (physmemPageAlloc i686PageTable 4 0).run r.st = .error .assertFreelistNotEmpty := by
  rcases h.counts hdisj with ⟨below, hlen, -, hcount, hsmall⟩
  have hn := prunedPages_le (bootLimit ebss entries)
  have hwrap : s'.physmem.freePages
      = 2 ^ 32 + countedPages entries - prunedPages (bootLimit ebss entries) := by
    rw [hcount]
    unfold sub32 wrap32
    omega
  have hover : s'.physmem.freelist.length < s'.physmem.freePages := by omega
  refine ⟨hover, hwrap, fun s hs => ?_⟩
  rw [← hs.freePages] at hover
  rcases overcounted_stuck (d := 0) (r := { st := s, out := [] }) _ hs.count hs.common hs.chain
    (h.nodup hdisj) hover (.base rfl) with ⟨r, hr, hone, hout, hstuck⟩
  exact ⟨r, hr, hone, hout.trans (List.append_nil _), hstuck⟩

/-- **When the booted allocator is safe.**  For a map with disjoint page intervals, when booting
returns: through any manager, in every run with any feeders, every allocation returns, if and only if
no more pages were pruned than were counted.  Otherwise the count has wrapped around, and there is a
run that hands out the whole free list, after which the assertion on it fails. -/
theorem boot_allocator_safe_iff (hstray : Harmless stray) (hdisj : PagesDisjoint entries)
    (hrun : (i686PhysmemAlloc stray entries).run (bootAt ebss) = .ok ((), s')) :
    ((∀ s, Represents s s'.physmem → ∀ r, PoolFrom i686PageTable 0 s r → ∀ m < r.st.count,
      ∃ res st, (physmemPageAlloc i686PageTable 4 m).run r.st = .ok (res, st)) ↔
      prunedPages (bootLimit ebss entries) ≤ countedPages entries) ∧
    (countedPages entries < prunedPages (bootLimit ebss entries) →
      s'.physmem.freePages = 2 ^ 32 + countedPages entries - prunedPages (bootLimit ebss entries) ∧
      ∀ s, Represents s s'.physmem → ∃ r, PoolFrom i686PageTable 0 s r ∧
        r.out = (s'.physmem.freelist.map i686PageTable.pageToPhys).reverse ∧
        (physmemPageAlloc i686PageTable 4 0).run r.st = .error .assertFreelistNotEmpty) := by
  have h := i686PhysmemAlloc_booted hstray hdisj hrun
  refine ⟨⟨?_, ?_⟩, fun hgt => ?_⟩
  · intro hsafe
    by_contra hgt
    rcases exists_represents (h.nodup hdisj) with ⟨s, hs⟩
    rcases (h.stuck hdisj (not_le.mp hgt)).2.2 s hs with ⟨r, hr, hone, -, hstuck⟩
    rcases hsafe s hs r hr 0 (by omega) with ⟨res, st, hok⟩
    rw [hstuck] at hok
    exact absurd hok (by simp)
  · intro hle s hs r hr m hm
    have hsource := (h.isShortSource hdisj hle hs).2
    rcases (hsource.pages_lost hr).2.2.1 m hm with ⟨res, st, hok, -⟩
    exact ⟨res, st, hok⟩
  · rcases h.stuck hdisj hgt with ⟨-, hwrap, hstuck⟩
    refine ⟨hwrap, fun s hs => ?_⟩
    rcases hstuck s hs with ⟨r, hr, -, hout, hfails⟩
    exact ⟨r, hr, hout, hfails⟩

/-- Seventeen pages are counted and 259 deducted: the allocator gets stuck. -/
theorem boot_allocator_safe_iff_small : ∃ s' s r,
    (i686PhysmemAlloc (fun _ => pure ()) smallMap).run (bootAt 0xC0101000) = .ok ((), s') ∧
    Represents s s'.physmem ∧ PoolFrom i686PageTable 0 s r ∧
    (physmemPageAlloc i686PageTable 4 0).run r.st = .error .assertFreelistNotEmpty ∧
    ¬∀ s, Represents s s'.physmem → ∀ r, PoolFrom i686PageTable 0 s r → ∀ m < r.st.count,
      ∃ res st, (physmemPageAlloc i686PageTable 4 m).run r.st = .ok (res, st) := by
  rcases smallMap_boots with ⟨s', hrun⟩
  have hbooted := i686PhysmemAlloc_booted harmless_pure smallMap_disjoint hrun
  rcases exists_represents (hbooted.nodup smallMap_disjoint) with ⟨s, hs⟩
  have hsafe := boot_allocator_safe_iff harmless_pure smallMap_disjoint hrun
  rcases (hsafe.2 (by decide +kernel)).2 s hs with ⟨r, hr, -, hstuck⟩
  exact ⟨s', s, r, hrun, hs, hr, hstuck, fun h => absurd (hsafe.1.mp h) (by decide +kernel)⟩

end Count

end Akaris
