import Akaris.Boot.MemoryMap
import Akaris.Physmem.DoubleFree

/-!
# Pruning the memory the kernel occupies

Once the pages of the usable regions are listed, `i686_prune_memory` walks all pages from physical
page 0 to the kernel end, takes each off its list and deducts it from `free_pages`.  The kernel end
is the limit of the identity map after all regions have been made room for (`brkLimit`), rounded up.

`i686PhysmemAlloc_wp` says what booting leaves: the listed pages above the kernel end
(`keptPages`), and a count that lacks every page up to it.

* **`free_above_kernel`** — the free list holds exactly the pages of usable regions above the kernel
  end, and neither the kernel image nor the array of page structures is among them.
* **`boot_count_iff`** — the count is the length of the list only when nothing was pruned: the pages
  below 1 MiB, and those of no region, are deducted although they were never counted.
* **`prune_linked_iff`** — every page is on a list when it is pruned only if there is no hole below
  the kernel.
-/

namespace Akaris

open BsdList Prog

/-- The static `i686_physmem` at boot, and a limit of the identity map. -/
def bootAt (ebss : ℕ) : Boot := ⟨⟨[], [], 0, 0, 0, 0⟩, ebss⟩

/-- `LIST_REMOVE` of a page on no list leaves the lists and the counters alone, if it returns. -/
def Harmless (stray : ℕ → BootProg Unit) : Prop :=
  ∀ page s, wp (stray page) (fun _ s' => s' = s) (fun _ => True) s

/-- The page is in the page interval of a usable entry. -/
def InRegion (entries : List MemoryMapEntry) (page : ℕ) : Prop :=
  ∃ e ∈ entries, e.type = 1 ∧ startpage e ≤ page ∧ page ≤ lastpage e

/-- The page intervals of the usable entries are pairwise disjoint. -/
def PagesDisjoint (entries : List MemoryMapEntry) : Prop :=
  (entries.filter (·.type = 1)).Pairwise fun e f => ∀ page,
    ¬(startpage e ≤ page ∧ page ≤ lastpage e ∧ startpage f ≤ page ∧ page ≤ lastpage f)

/-- `end_kernel` for a limit of the identity map. -/
def kernelEnd (limit : ℕ) : ℕ := wrap32 (limit + (pageSize - 1)) / pageSize

/-- How many pages are pruned, from page 0 on. -/
def prunedPages (limit : ℕ) : ℕ := kernelEnd limit + 1 - highstart / pageSize

section Prune

variable {stray : ℕ → BootProg Unit} {entries : List MemoryMapEntry} {ebss page : ℕ}

lemma mem_flatMap_listed : page ∈ entries.flatMap listed ↔ InRegion entries page := by
  rw [List.mem_flatMap, InRegion]
  refine exists_congr fun e => and_congr_right fun _ => ?_
  by_cases htype : e.type = 1
  · have hle : startpage e ≤ lastpage e := by
      rw [lastpage_eq]
      exact le_max_left _ _
    rw [listed, if_pos htype, List.mem_range'_1]
    omega
  · rw [listed, if_neg htype]
    simp [htype]

lemma PagesDisjoint.nodup (h : PagesDisjoint entries) : (entries.flatMap listed).Nodup := by
  rw [flatMap_listed_filter, List.nodup_flatMap]
  constructor
  · intro e _
    rw [listed]
    split_ifs
    · exact List.nodup_range'
    · exact List.nodup_nil
  · refine h.imp ?_
    intro e f hsep page he hf
    have hlisted : ∀ g : MemoryMapEntry, page ∈ listed g →
        startpage g ≤ page ∧ page ≤ lastpage g := by
      intro g hg
      rcases mem_flatMap_listed.mp (List.mem_flatMap.mpr ⟨g, List.mem_singleton_self g, hg⟩) with
        ⟨g', hg', -, hrange⟩
      rw [List.mem_singleton.mp hg'] at hrange
      exact hrange
    exact hsep page ⟨(hlisted e he).1, (hlisted e he).2, (hlisted f hf).1, (hlisted f hf).2⟩

/-! ## The loop -/

/-- The page structure that the loop gets for a page. -/
lemma prunePage_eq (hpage : page < 2 ^ 18) :
    i686PhysmemPhysToPage
      (wrap32 (sub32 (highstart / pageSize + page) (highstart / pageSize) * pageSize)) = page := by
  have hsub : sub32 (highstart / pageSize + page) (highstart / pageSize) = page := by
    rw [sub32_of_le (by omega) (by simp only [highstart, pageSize]; omega)]
    omega
  rw [hsub, i686PhysmemPhysToPage, wrap32_of_lt (by simp only [pageSize]; omega)]
  simp only [pageSize]
  omega

lemma prunedPages_le (limit : ℕ) : prunedPages limit ≤ 2 ^ 18 := by
  simp only [prunedPages, kernelEnd, wrap32, pageSize, highstart]
  omega

/-- A page is on one of the lists. -/
def Linked (s : Boot) (page : ℕ) : Prop := page ∈ s.physmem.bootlist ∨ page ∈ s.physmem.freelist

/-- What pruning `n` pages from `first` on leaves. -/
structure Pruned (first n : ℕ) (s s' : Boot) : Prop where
  boot : s'.physmem.bootlist = s.physmem.bootlist.filter fun p => p < first ∨ first + n ≤ p
  free : s'.physmem.freelist = s.physmem.freelist.filter fun p => p < first ∨ first + n ≤ p
  freePages : s'.physmem.freePages = s.physmem.freePages
  startAddress : s'.physmem.startAddress = s.physmem.startAddress
  limit : s'.identitymapLimit = s.identitymapLimit

/-- One page. -/
lemma listRemove_wp (hstray : Harmless stray) (s : Boot) (hboot : s.physmem.bootlist.Nodup)
    (hfree : s.physmem.freelist.Nodup) :
    wp (listRemove stray page) (fun _ s' => Pruned page 1 s s') (fun _ => True) s := by
  have hone : ∀ l : List ℕ, l.Nodup →
      l.erase page = l.filter fun p => p < page ∨ page + 1 ≤ p := by
    intro l hl
    rw [hl.erase_eq_filter]
    refine List.filter_congr fun p _ => ?_
    simp only [Bool.decide_or]
    by_cases hp : p = page
    · simp [hp]
    · have : p < page ∨ page + 1 ≤ p := by omega
      rcases this with h | h <;> simp [hp, h]
  simp only [listRemove, wp_bind, wp_gets]
  split
  · exact ⟨hone _ hboot, hone _ hfree, rfl, rfl, rfl⟩
  · next hout =>
      rw [not_or] at hout
      refine wp_mono (hstray page s) ?_ fun _ _ => trivial
      rintro _ s' rfl
      refine ⟨?_, ?_, rfl, rfl, rfl⟩
      · rw [← hone _ hboot, List.erase_of_not_mem hout.1]
      · rw [← hone _ hfree, List.erase_of_not_mem hout.2]

lemma Pruned.cons {first n : ℕ} {s s₁ s' : Boot} (h : Pruned first 1 s s₁)
    (h' : Pruned (first + 1) n s₁ s') : Pruned first (n + 1) s s' := by
  have hfilter : ∀ l : List ℕ,
      (l.filter fun p => p < first ∨ first + 1 ≤ p).filter
          (fun p => p < first + 1 ∨ first + 1 + n ≤ p)
        = l.filter fun p => p < first ∨ first + (n + 1) ≤ p := by
    intro l
    rw [List.filter_filter]
    refine List.filter_congr fun p _ => ?_
    rw [← Bool.decide_and, decide_eq_decide]
    omega
  refine ⟨?_, ?_, h'.freePages.trans h.freePages, h'.startAddress.trans h.startAddress,
    h'.limit.trans h.limit⟩
  · rw [h'.boot, h.boot, hfilter]
  · rw [h'.free, h.free, hfilter]

/-- **The loop takes the pages off their lists** and counts every one of them. -/
lemma pruneLoop_wp (hstray : Harmless stray) (n : ℕ) :
    ∀ first forcemarked s, first + n ≤ 2 ^ 18 → forcemarked + n < 2 ^ 32 →
      s.physmem.bootlist.Nodup → s.physmem.freelist.Nodup →
      wp (pruneLoop stray n (highstart / pageSize + first) forcemarked)
        (fun marked s' => marked = forcemarked + n ∧ Pruned first n s s') (fun _ => True) s := by
  induction n with
  | zero =>
      intro first forcemarked s _ _ _ _
      have hall : ∀ l : List ℕ, l = l.filter fun p => p < first ∨ first + 0 ≤ p := by
        intro l
        refine (List.filter_eq_self.mpr fun p _ => ?_).symm
        rw [decide_eq_true_eq]
        omega
      exact ⟨rfl, hall _, hall _, rfl, rfl, rfl⟩
  | succ n ih =>
      intro first forcemarked s hfirst hmarked hboot hfree
      simp only [pruneLoop]
      rw [prunePage_eq (by omega), wp_bind]
      refine wp_mono (listRemove_wp hstray s hboot hfree) ?_ fun _ _ => trivial
      intro _ s₁ h₁
      have hwrap : wrap32 (forcemarked + 1) = forcemarked + 1 := wrap32_of_lt (by omega)
      rw [hwrap, Nat.add_assoc]
      refine wp_mono (ih (first + 1) (forcemarked + 1) s₁ (by omega) (by omega)
        (h₁.boot ▸ hboot.filter _) (h₁.free ▸ hfree.filter _)) ?_ fun _ _ => trivial
      rintro marked s' ⟨rfl, h'⟩
      exact ⟨by omega, h₁.cons h'⟩

/-- With a fault for stray pages, the loop returns when every page is on a list. -/
lemma pruneLoop_linked (n : ℕ) :
    ∀ first forcemarked s, first + n ≤ 2 ^ 18 →
      wp (pruneLoop (fun _ => fault .strayRemove) n (highstart / pageSize + first) forcemarked)
        (fun _ _ => ∀ p, first ≤ p → p < first + n → Linked s p)
        (fun e => e = .strayRemove ∧ ∃ p, first ≤ p ∧ p < first + n ∧ ¬Linked s p) s := by
  induction n with
  | zero => exact fun _ _ _ _ p hp hp' => absurd hp' (by omega)
  | succ n ih =>
      intro first forcemarked s hfirst
      simp only [pruneLoop, listRemove]
      rw [prunePage_eq (by omega), wp_bind]
      simp only [wp_bind, wp_gets]
      split
      · next hlinked =>
          simp only [wp_update]
          set s₁ : Boot := { s with physmem := { s.physmem with
            bootlist := s.physmem.bootlist.erase first
            freelist := s.physmem.freelist.erase first } } with hs₁
          have hiff : ∀ p, first + 1 ≤ p → (Linked s₁ p ↔ Linked s p) := by
            intro p hp
            have hne : p ≠ first := by omega
            simp only [Linked, hs₁, List.mem_erase_of_ne hne]
          rw [Nat.add_assoc]
          refine wp_mono (ih (first + 1) (wrap32 (forcemarked + 1)) s₁ (by omega)) ?_ ?_
          · intro _ s' hall p hp hp'
            rcases Nat.eq_or_lt_of_le hp with rfl | hlt
            · exact hlinked
            · exact (hiff p hlt).mp (hall p hlt (by omega))
          · rintro e ⟨he, p, hp, hp', hnot⟩
            exact ⟨he, p, by omega, by omega, fun h => hnot ((hiff p hp).mpr h)⟩
      · next hout => exact ⟨rfl, first, le_rfl, by omega, hout⟩

/-! ## Booting -/

/-- The loop over the map returns when no entry needs more than 32 bits. -/
lemma createInitialLoop_high (table : ℕ) (entries : List MemoryMapEntry) :
    ∀ totalPages freePages position s,
      wp (createInitialLoop table entries totalPages freePages position)
        (fun _ _ => ∀ e ∈ entries, e.baseAddrHigh = 0 ∧ e.lengthHigh = 0)
        (fun e => e = .moreThan32Bits ∧ ∃ e ∈ entries, ¬(e.baseAddrHigh = 0 ∧ e.lengthHigh = 0))
        s := by
  induction entries with
  | nil => exact fun _ _ _ _ => List.forall_mem_nil _
  | cons entry entries ih =>
      intro totalPages freePages position s
      rw [createInitialLoop, wp_bind, wp_assert]
      refine ⟨fun hentry => ?_, fun hentry => ⟨rfl, entry, List.mem_cons_self, hentry⟩⟩
      have htail : ∀ totalPages freePages position s,
          wp (createInitialLoop table entries totalPages freePages position)
            (fun _ _ => ∀ e ∈ entry :: entries, e.baseAddrHigh = 0 ∧ e.lengthHigh = 0)
            (fun e => e = .moreThan32Bits ∧
              ∃ e ∈ entry :: entries, ¬(e.baseAddrHigh = 0 ∧ e.lengthHigh = 0)) s := by
        intro totalPages freePages position s
        refine wp_mono (ih totalPages freePages position s) ?_ ?_
        · intro _ s' hentries
          exact List.forall_mem_cons.mpr ⟨hentry, hentries⟩
        · rintro e ⟨he, g, hg, hhigh⟩
          exact ⟨he, g, List.mem_cons_of_mem _ hg, hhigh⟩
      by_cases htype : entry.type = 1
      · let position' := wrap32 (table + sizeofPhysmemPage * (lastpage entry + 1))
        have hbrk := virtmemBrk_run position' s
        rcases insertPages_run (lastpage entry + 1 - startpage entry) (startpage entry) freePages
          { s with identitymapLimit := max s.identitymapLimit position' } with
          ⟨freePages', s₁, hrun, -⟩
        simp only [if_pos htype, pure_bind]
        rw [wp_bind, wp_of_run hbrk, wp_bind, wp_of_run hrun]
        simp only [wp_bind, wp_update]
        exact htail _ _ _ _
      · simp only [if_neg htype, pure_bind, wp_bind, wp_update]
        exact htail _ _ _ _

/-- The limit that the kernel end is taken from. -/
def bootLimit (ebss : ℕ) (entries : List MemoryMapEntry) : ℕ := brkLimit ebss entries ebss

/-- What booting leaves: of the pages of usable regions, those from page `n` on, and a count that
lacks `n` pages, where `n` is the number of pages that were pruned. -/
structure Booted (ebss : ℕ) (entries : List MemoryMapEntry) (s : Boot) : Prop where
  free : s.physmem.freelist = ((entries.flatMap listed).filter (¬ LowPage ·)).reverse.filter
    fun p => prunedPages (bootLimit ebss entries) ≤ p
  freePages : s.physmem.freePages
    = sub32 (wrap32 ((entries.flatMap listed).filter (¬ LowPage ·)).length)
        (prunedPages (bootLimit ebss entries))
  limit : s.identitymapLimit = bootLimit ebss entries
  startAddress : s.physmem.startAddress = ebss

/-- The count is written last. -/
lemma Pruned.booted {n freePages : ℕ} {s s' : Boot} (h : Pruned 0 n s s')
    (hn : prunedPages (bootLimit ebss entries) = n)
    (hfree : s.physmem.freelist = ((entries.flatMap listed).filter (¬ LowPage ·)).reverse)
    (hstart : s.physmem.startAddress = ebss)
    (hlimit : s.identitymapLimit = bootLimit ebss entries)
    (hcount : freePages = sub32 (wrap32 ((entries.flatMap listed).filter (¬ LowPage ·)).length)
      (prunedPages (bootLimit ebss entries))) :
    Booted ebss entries { s' with physmem := { s'.physmem with freePages := freePages } } where
  free := by
    rw [← hfree, hn]
    refine h.free.trans (List.filter_congr fun p _ => ?_)
    rw [decide_eq_decide]
    omega
  freePages := hcount
  limit := h.limit.trans hlimit
  startAddress := h.startAddress.trans hstart

/-- **What booting leaves**, when it returns, for a map with disjoint page intervals. -/
theorem i686PhysmemAlloc_booted (hstray : Harmless stray) (hdisj : PagesDisjoint entries)
    {s' : Boot} (hrun : (i686PhysmemAlloc stray entries).run (bootAt ebss) = .ok ((), s')) :
    Booted ebss entries s' := by
  rw [i686PhysmemAlloc, run_bind_update] at hrun
  rcases run_bind_iff.mp hrun with ⟨_, s₁, hcreate, hprune⟩
  -- the loop over the map returned, so no entry needs more than 32 bits
  have hhigh : ∀ e ∈ entries, e.baseAddrHigh = 0 ∧ e.lengthHigh = 0 := by
    rw [i686CreateInitial, run_bind_ok (virtmemBrk_run 0 _), run_bind_update] at hcreate
    exact wp_run (createInitialLoop_high _ _ _ _ _ _) hcreate
  rcases i686CreateInitial_run entries hhigh (bootAt ebss) with
    ⟨s₂, hrun₂, hboot, hfree, hlimit, hstart, hcount⟩
  obtain rfl : s₁ = s₂ := by
    rw [hcreate, Except.ok.injEq, Prod.mk.injEq] at hrun₂
    exact hrun₂.2
  have hnodup := hdisj.nodup
  have hwp : wp (i686PruneMemory stray) (fun _ s' => Booted ebss entries s') (fun _ => True)
      s₁ := by
    have hlimit' : s₁.identitymapLimit = bootLimit ebss entries := hlimit
    have hself : { s₁ with identitymapLimit := max s₁.identitymapLimit 0 } = s₁ := by
      rw [Nat.max_zero]
    have hbootNodup : s₁.physmem.bootlist.Nodup := by
      rw [hboot, List.nodup_reverse]
      exact hnodup.filter _
    have hfreeNodup : s₁.physmem.freelist.Nodup := by
      rw [hfree, List.nodup_reverse]
      exact hnodup.filter _
    obtain ⟨n, hn⟩ : ∃ n, prunedPages (bootLimit ebss entries) = n := ⟨_, rfl⟩
    have hle := prunedPages_le (bootLimit ebss entries)
    rw [hn] at hle
    have hloop := pruneLoop_wp hstray n 0 0 s₁ (by omega) (by omega) hbootNodup hfreeNodup
    rw [Nat.add_zero] at hloop
    have hn' := hn
    rw [prunedPages, kernelEnd] at hn'
    rw [i686PruneMemory, wp_bind, wp_of_run (virtmemBrk_run 0 s₁), hself, hlimit']
    simp only [hn', wp_bind]
    refine wp_mono hloop ?_ fun _ _ => trivial
    rintro marked s₃ ⟨hmarked, h⟩
    rw [Nat.zero_add] at hmarked
    simp only [wp_bind, wp_update, wp_pure]
    refine h.booted hn hfree hstart hlimit' ?_
    rw [h.freePages, hcount rfl, hmarked, hn]
  rcases run_bind_iff.mp hprune with ⟨forcemarked, s₃, hrun₃, hend⟩
  rw [run_pure, Except.ok.injEq, Prod.mk.injEq] at hend
  rw [← hend.2]
  have hbooted := wp_run hwp hrun₃
  exact hbooted

/-! ## What the free list holds -/

/-- The array of page structures for the usable regions, placed at `ebss`, and the kernel image
below it end below the last page. -/
def ArrayFits (ebss : ℕ) (entries : List MemoryMapEntry) : Prop :=
  ebss < 0xFFFFF000 ∧
    ∀ e ∈ entries, e.type = 1 → ebss + sizeofPhysmemPage * (lastpage e + 1) < 0xFFFFF000

lemma brkLimit_spec (table : ℕ) (entries : List MemoryMapEntry) (bound : ℕ)
    (hfits : ∀ e ∈ entries, e.type = 1 → table + sizeofPhysmemPage * (lastpage e + 1) < bound)
    (hbound : bound ≤ 2 ^ 32) :
    ∀ limit < bound, limit ≤ brkLimit table entries limit ∧ brkLimit table entries limit < bound ∧
      ∀ e ∈ entries, e.type = 1 →
        table + sizeofPhysmemPage * (lastpage e + 1) ≤ brkLimit table entries limit := by
  induction entries with
  | nil => exact fun limit hlimit => ⟨le_rfl, hlimit, fun e he => absurd he List.not_mem_nil⟩
  | cons e entries ih =>
      intro limit hlimit
      rcases List.forall_mem_cons.mp hfits with ⟨hfit, hfits⟩
      by_cases htype : e.type = 1
      · have hlt := hfit htype
        have hwrap : wrap32 (table + sizeofPhysmemPage * (lastpage e + 1))
            = table + sizeofPhysmemPage * (lastpage e + 1) := wrap32_of_lt (by omega)
        have hstep : brkLimit table (e :: entries) limit = brkLimit table entries
            (max limit (table + sizeofPhysmemPage * (lastpage e + 1))) := by
          rw [brkLimit, List.filter_cons_of_pos (by simpa using htype), List.foldl_cons, hwrap]
          rfl
        rcases ih hfits (max limit (table + sizeofPhysmemPage * (lastpage e + 1)))
          (max_lt hlimit hlt) with ⟨hle, hlt', hall⟩
        rw [hstep]
        refine ⟨(le_max_left _ _).trans hle, hlt', List.forall_mem_cons.mpr ⟨fun _ => ?_, hall⟩⟩
        exact (le_max_right _ _).trans hle
      · have hstep : brkLimit table (e :: entries) limit = brkLimit table entries limit := by
          rw [brkLimit, List.filter_cons_of_neg (by simpa using htype)]
          rfl
        rcases ih hfits limit hlimit with ⟨hle, hlt', hall⟩
        rw [hstep]
        exact ⟨hle, hlt', List.forall_mem_cons.mpr ⟨fun h => absurd h htype, hall⟩⟩

lemma inRegion_lt (hpage : InRegion entries page) : page < 2 ^ 20 := by
  rcases List.mem_flatMap.mp (mem_flatMap_listed.mpr hpage) with ⟨e, -, hlisted⟩
  exact listed_lt hlisted

lemma Booted.mem_freelist {s' : Boot} (h : Booted ebss entries s') :
    page ∈ s'.physmem.freelist ↔ InRegion entries page ∧ 0x100000 ≤ page * pageSize ∧
      prunedPages (bootLimit ebss entries) ≤ page := by
  rw [h.free, List.mem_filter, List.mem_reverse, List.mem_filter, mem_flatMap_listed,
    decide_eq_true_eq, decide_eq_true_eq, and_assoc]
  refine and_congr_right fun hregion => and_congr_left fun _ => ?_
  rw [lowPage_iff (inRegion_lt hregion), Nat.not_lt]

lemma Booted.nodup {s' : Boot} (hdisj : PagesDisjoint entries) (h : Booted ebss entries s') :
    s'.physmem.freelist.Nodup := by
  rw [h.free]
  exact (List.nodup_reverse.mpr (hdisj.nodup.filter _)).filter _

/-- **Memory the kernel occupies is never free.**  When booting returns, for a map with disjoint
page intervals and an array that does not wrap around, the free list holds exactly the pages of
usable regions that are at or above 1 MiB and above the limit of the identity map, rounded up.  The
limit lies above the kernel image and above the structure of every page that was ever listed, so
no byte of a free page belongs to either. -/
theorem free_above_kernel (hstray : Harmless stray) (hdisj : PagesDisjoint entries)
    (hfits : ArrayFits ebss entries) {s' : Boot}
    (hrun : (i686PhysmemAlloc stray entries).run (bootAt ebss) = .ok ((), s')) :
    s'.physmem.freelist.Nodup ∧
    (∀ page, page ∈ s'.physmem.freelist ↔ InRegion entries page ∧ 0x100000 ≤ page * pageSize ∧
      pageUp s'.identitymapLimit < page + highstart / pageSize) ∧
    (∀ page ∈ s'.physmem.freelist, s'.identitymapLimit ≤ page * pageSize + highstart) ∧
    ebss ≤ s'.identitymapLimit ∧ s'.physmem.startAddress = ebss ∧
    ∀ page, InRegion entries page →
      s'.physmem.startAddress + sizeofPhysmemPage * (page + 1) ≤ s'.identitymapLimit := by
  have h := i686PhysmemAlloc_booted hstray hdisj hrun
  rcases brkLimit_spec ebss entries 0xFFFFF000 hfits.2 (by norm_num) ebss hfits.1 with
    ⟨hle, hlt, hall⟩
  have hlimit : s'.identitymapLimit = brkLimit ebss entries ebss := h.limit
  -- the limit does not wrap when it is rounded up
  have hpruned : ∀ page, prunedPages (bootLimit ebss entries) ≤ page ↔
      pageUp s'.identitymapLimit < page + highstart / pageSize := by
    intro page
    rw [hlimit, prunedPages, kernelEnd, bootLimit]
    simp only [pageUp, pageSize, highstart]
    rw [wrap32_of_lt (by omega)]
    omega
  have hmem : ∀ page, page ∈ s'.physmem.freelist ↔ InRegion entries page ∧
      0x100000 ≤ page * pageSize ∧ pageUp s'.identitymapLimit < page + highstart / pageSize := by
    intro page
    rw [h.mem_freelist, hpruned]
  refine ⟨h.nodup hdisj, hmem, ?_, hlimit ▸ hle, h.startAddress, ?_⟩
  · intro page hpage
    have habove := ((hmem page).mp hpage).2.2
    simp only [pageUp, pageSize, highstart] at habove ⊢
    omega
  · rintro page ⟨e, he, htype, -, hpage⟩
    have hentry := hall e he htype
    rw [h.startAddress, hlimit]
    simp only [sizeofPhysmemPage] at hentry ⊢
    omega

lemma harmless_pure : Harmless fun _ => pure () := fun _ _ => rfl

/-- Sixteen pages at 1 MiB, and a kernel that ends one page above that. -/
def smallMap : List MemoryMapEntry := [⟨0x100000, 0, 0x10000, 0, 1⟩]

lemma smallMap_disjoint : PagesDisjoint smallMap := by
  rw [PagesDisjoint, smallMap, List.filter_cons_of_pos (by decide)]
  exact List.pairwise_singleton _ _

lemma smallMap_boots : ∃ s', (i686PhysmemAlloc (fun _ => pure ()) smallMap).run (bootAt 0xC0101000)
    = .ok ((), s') :=
  ⟨_, run_after (by decide +kernel)⟩

/-- Memory below and above 1 MiB, and a reserved region between. -/
def splitMap : List MemoryMapEntry :=
  [⟨0, 0, 0x3000, 0, 1⟩, ⟨0x9F000, 0, 0x1000, 0, 2⟩, ⟨0x100000, 0, 0x10000, 0, 1⟩]

lemma splitMap_disjoint : PagesDisjoint splitMap := by
  have hfilter : splitMap.filter (·.type = 1)
      = [⟨0, 0, 0x3000, 0, 1⟩, ⟨0x100000, 0, 0x10000, 0, 1⟩] := by decide
  rw [PagesDisjoint, hfilter, List.pairwise_pair]
  have hlast : lastpage ⟨0, 0, 0x3000, 0, 1⟩ = 3 := by decide
  have hstart : startpage ⟨0x100000, 0, 0x10000, 0, 1⟩ = 0x100 := by decide
  intro page hpage
  omega

lemma splitMap_fits : ArrayFits 0xC0101000 splitMap := ⟨by decide, by decide⟩

lemma splitMap_boots : ∃ s', (i686PhysmemAlloc (fun _ => pure ()) splitMap).run (bootAt 0xC0101000)
    = .ok ((), s') :=
  ⟨_, run_after (by decide +kernel)⟩

/-- The last page of memory is free, and page 1 is not. -/
theorem free_above_kernel_small : ∃ s',
    (i686PhysmemAlloc (fun _ => pure ()) splitMap).run (bootAt 0xC0101000) = .ok ((), s') ∧
      s'.physmem.freelist.Nodup ∧ 0x10F ∈ s'.physmem.freelist ∧ 1 ∉ s'.physmem.freelist := by
  rcases splitMap_boots with ⟨s', hrun⟩
  have h := free_above_kernel harmless_pure splitMap_disjoint splitMap_fits hrun
  refine ⟨s', hrun, h.1, (h.2.1 _).mpr ⟨?_, by decide, ?_⟩, fun hpage => ?_⟩
  · exact ⟨⟨0x100000, 0, 0x10000, 0, 1⟩, by decide, rfl, by decide, by decide⟩
  · rw [(i686PhysmemAlloc_booted harmless_pure splitMap_disjoint hrun).limit]
    decide +kernel
  · exact absurd ((h.2.1 1).mp hpage).2.1 (by decide)

/-! ## The count -/

/-- A manager that is the `struct physmem` in `i686_physmem`: a common one, with that list and that
count. -/
structure Represents (s : Managers) (p : I686Physmem) : Prop where
  count : s.count = 1
  common : (s.mgr 0).v = .common
  chain : Chain s.links (.first 0) p.freelist
  freePages : (s.mgr 0).freePages = p.freePages
  totalPages_lt : (s.mgr 0).totalPages < 2 ^ 32

/-- The pool after some allocations. -/
def AllocReachable (s : Managers) : Pool → Prop :=
  Reachable (· = { st := s, out := [] }) (CommonStep i686PageTable 0 fun _ _ => False)

/-- The count is right: it is the length of the free list, and allocations return, with
`PHYSMEM_ERR_OOM` exactly when the list is empty. -/
def CountRight (p : I686Physmem) : Prop :=
  p.freePages = p.freelist.length ∧
    ∀ s, Represents s p → ∀ r, AllocReachable s r →
      ∃ res s', (physmemPageAlloc i686PageTable 4 0).run r.st = .ok (res, s') ∧
        (res = .error .oom ↔ r.st.links.lhFirst 0 = none)

/-- A list that is counted right is one that the allocator works with. -/
lemma countRight_of_eq {p : I686Physmem} (hnodup : p.freelist.Nodup)
    (hlt : ∀ page ∈ p.freelist, page < 2 ^ 20) (hcount : p.freePages = p.freelist.length) :
    CountRight p := by
  refine ⟨hcount, fun s hs r hr => ?_⟩
  have hlen : p.freelist.length < 2 ^ 32 := i686PageTable_few _ hnodup hlt
  have hsource : IsSource i686PageTable p.freelist s :=
    ⟨hs.count, hs.common, hs.chain, hs.freePages.trans hcount,
      by rw [hs.freePages, hcount]; exact hlen, hs.totalPages_lt, hnodup, hlt⟩
  have hinv : ∃ xs, FreeOnce i686PageTable r xs := by
    refine Reachable.invariant (I := fun r => ∃ xs, FreeOnce i686PageTable r xs) ?_ ?_ hr
    · rintro r rfl
      exact ⟨_, FreeOnce.init hsource rfl⟩
    · rintro r r' ⟨xs, h⟩ hstep
      exact h.step i686PageTable_few (fun _ _ hfalse => hfalse.elim) hstep
  rcases hinv with ⟨xs, h⟩
  have hrun := h.alloc_run 0
  have hfirst : r.st.links.lhFirst 0 = xs.head? := h.list.read_eq
  cases xs with
  | nil => exact ⟨_, _, hrun, iff_of_true rfl hfirst⟩
  | cons x xs =>
      refine ⟨_, _, hrun, iff_of_false (by simp) ?_⟩
      rw [hfirst]
      simp

/-- Pages taken off a list and pages deducted from its length: the two agree when none was deducted
that was not on the list. -/
lemma length_filter_eq_sub_iff {l : List ℕ} {n : ℕ} (hnodup : l.Nodup) (hzero : 0 ∉ l)
    (hn : n < 2 ^ 32) (hlen : l.length < 2 ^ 32) :
    sub32 l.length n = (l.filter fun p => n ≤ p).length ↔ n = 0 := by
  have hsplit : (l.filter fun p => n ≤ p).length + (l.filter fun p => ¬n ≤ p).length
      = l.length := by
    rw [← List.length_append]
    simpa only [decide_not] using (List.filter_append_perm (fun p => decide (n ≤ p)) l).length_eq
  have hbelow : (l.filter fun p => ¬n ≤ p).length ≤ n - 1 := by
    have hsub : (l.filter fun p => ¬n ≤ p).toFinset ⊆ Finset.Ico 1 n := by
      intro p hp
      rw [List.mem_toFinset, List.mem_filter, decide_eq_true_eq] at hp
      rw [Finset.mem_Ico]
      have hne : p ≠ 0 := fun h => hzero (h ▸ hp.1)
      omega
    have hcard := Finset.card_le_card hsub
    rwa [List.toFinset_card_of_nodup (hnodup.filter _), Nat.card_Ico] at hcard
  unfold sub32 wrap32
  omega

/-- **The boot page count is right only when nothing is pruned.**  For a map with disjoint page
intervals and any kernel end, when booting returns, `free_pages` is the length of the free list —
and allocations fail exactly on an empty list, and never fire the assertion — if and only if the
limit of the identity map, rounded up in 32 bits, is a page below `highstart`. -/
theorem boot_count_iff (hstray : Harmless stray) (hdisj : PagesDisjoint entries) {s' : Boot}
    (hrun : (i686PhysmemAlloc stray entries).run (bootAt ebss) = .ok ((), s')) :
    CountRight s'.physmem ↔ kernelEnd (bootLimit ebss entries) < highstart / pageSize := by
  have h := i686PhysmemAlloc_booted hstray hdisj hrun
  have hnodup := (List.nodup_reverse (l := (entries.flatMap listed).filter (¬ LowPage ·))).mpr
    (hdisj.nodup.filter _)
  set l := ((entries.flatMap listed).filter (¬ LowPage ·)).reverse with hl
  have hlt : ∀ page ∈ l, page < 2 ^ 20 := by
    intro page hpage
    rw [hl, List.mem_reverse, List.mem_filter, mem_flatMap_listed] at hpage
    exact inRegion_lt hpage.1
  have hzero : 0 ∉ l := by
    rw [hl, List.mem_reverse, List.mem_filter]
    rintro ⟨-, hhigh⟩
    exact absurd hhigh (by decide)
  have hlen : l.length < 2 ^ 32 := i686PageTable_few l hnodup hlt
  have hfreePages :
      s'.physmem.freePages = sub32 l.length (prunedPages (bootLimit ebss entries)) := by
    rw [h.freePages, hl, List.length_reverse]
    rw [hl, List.length_reverse] at hlen
    rw [wrap32_of_lt hlen]
  have hn := prunedPages_le (bootLimit ebss entries)
  have hiff := length_filter_eq_sub_iff (n := prunedPages (bootLimit ebss entries)) hnodup hzero
    (by omega) hlen
  have hnone : prunedPages (bootLimit ebss entries) = 0 ↔
      kernelEnd (bootLimit ebss entries) < highstart / pageSize := by
    rw [prunedPages]
    omega
  rw [← hnone, ← hiff, ← hfreePages, ← h.free]
  refine ⟨fun hright => hright.1, countRight_of_eq (h.nodup hdisj) fun page hpage => ?_⟩
  exact inRegion_lt (h.mem_freelist.mp hpage).1

/-- A limit in the last page: rounded up, it wraps to page 0, and nothing is pruned. -/
theorem boot_count_small : ∃ s',
    (i686PhysmemAlloc (fun _ => pure ()) smallMap).run (bootAt 0xFFFFF800) = .ok ((), s') ∧
      CountRight s'.physmem := by
  have hrun : (i686PhysmemAlloc (fun _ => pure ()) smallMap).run (bootAt 0xFFFFF800)
      = .ok ((), after (i686PhysmemAlloc (fun _ => pure ()) smallMap) (bootAt 0xFFFFF800)) :=
    run_after (by decide +kernel)
  have hiff := boot_count_iff harmless_pure smallMap_disjoint hrun
  exact ⟨_, hrun, hiff.mpr (by decide +kernel)⟩

/-- Seventeen pages are listed and counted, the first three of them belong to the kernel, and 259
pages are deducted. -/
theorem boot_count_wrong : ¬∀ (entries : List MemoryMapEntry) (ebss : ℕ) (s' : Boot),
    PagesDisjoint entries →
    (i686PhysmemAlloc (fun _ => pure ()) entries).run (bootAt ebss) = .ok ((), s') →
    CountRight s'.physmem := by
  intro hall
  rcases smallMap_boots with ⟨s', hrun⟩
  have hcount := (hall smallMap 0xC0101000 s' smallMap_disjoint hrun).1
  have heval :
      ((i686PhysmemAlloc (fun _ => pure ()) smallMap).run (bootAt 0xC0101000)).toOption.map
      (fun r => r.2.physmem.freePages == r.2.physmem.freelist.length) = some false := by
    decide +kernel
  rw [hrun] at heval
  simp [Except.toOption, hcount] at heval

/-! ## Stray pages -/

/-- Booting never passes a page to `LIST_REMOVE` that is on neither list. -/
def PrunesLinked (ebss : ℕ) (entries : List MemoryMapEntry) : Prop :=
  (i686PhysmemAlloc (fun _ => fault .strayRemove) entries).run (bootAt ebss)
    ≠ .error .strayRemove

/-- A usable region that contains the kernel image, which begins at 1 MiB, and the array behind
it. -/
structure HoldsKernel (ebss : ℕ) (entries : List MemoryMapEntry) (region : MemoryMapEntry) :
    Prop where
  mem : region ∈ entries
  type : region.type = 1
  base : region.baseAddrLow ≤ 0x100000
  image : highstart + 0x100000 ≤ ebss
  array : ArrayFits ebss entries
  ends : bootLimit ebss entries ≤ highstart + region.endAddr
  below : region.endAddr ≤ 2 ^ 32 - 4096

/-- What a run that prunes stray pages no page structure for comes to. -/
lemma i686PhysmemAlloc_strict (ebss : ℕ) (entries : List MemoryMapEntry) :
    wp (i686PhysmemAlloc (fun _ => fault .strayRemove) entries)
      (fun _ _ => ∀ page < prunedPages (bootLimit ebss entries), InRegion entries page)
      (fun e => (e = .moreThan32Bits ∧ ∃ e ∈ entries, ¬(e.baseAddrHigh = 0 ∧ e.lengthHigh = 0)) ∨
        (e = .strayRemove ∧ (∀ e ∈ entries, e.baseAddrHigh = 0 ∧ e.lengthHigh = 0) ∧
          ∃ page < prunedPages (bootLimit ebss entries), ¬InRegion entries page))
      (bootAt ebss) := by
  rw [i686PhysmemAlloc, wp_bind, wp_update, wp_bind]
  by_cases hhigh : ∀ e ∈ entries, e.baseAddrHigh = 0 ∧ e.lengthHigh = 0
  · rcases i686CreateInitial_run entries hhigh (bootAt ebss) with
      ⟨s₁, hcreate, hboot, hfree, hlimit, -⟩
    have hlinked : ∀ page, Linked s₁ page ↔ InRegion entries page := by
      intro page
      rw [Linked, hboot, hfree, List.mem_reverse, List.mem_reverse, List.mem_filter,
        List.mem_filter, ← mem_flatMap_listed, ← and_or_left]
      simp [em]
    have hlimit' : s₁.identitymapLimit = bootLimit ebss entries := hlimit
    have hself : { s₁ with identitymapLimit := max s₁.identitymapLimit 0 } = s₁ := by
      rw [Nat.max_zero]
    obtain ⟨n, hn⟩ : ∃ n, prunedPages (bootLimit ebss entries) = n := ⟨_, rfl⟩
    have hle := prunedPages_le (bootLimit ebss entries)
    rw [hn] at hle ⊢
    have hloop := pruneLoop_linked n 0 0 s₁ (by omega)
    rw [Nat.add_zero] at hloop
    rw [prunedPages, kernelEnd] at hn
    rw [wp_of_run hcreate, i686PruneMemory]
    rw [wp_bind, wp_bind, wp_of_run (virtmemBrk_run 0 s₁), hself, hlimit']
    simp only [hn, wp_bind]
    refine wp_mono hloop ?_ ?_
    · intro _ s₂ hall
      simp only [wp_bind, wp_update, wp_pure]
      exact fun page hpage => (hlinked page).mp (hall page (Nat.zero_le _) (by omega))
    · rintro e ⟨he, page, -, hpage, hout⟩
      exact Or.inr ⟨he, hhigh, page, by omega, fun h => hout ((hlinked page).mpr h)⟩
  · rw [i686CreateInitial, wp_bind, wp_of_run (virtmemBrk_run 0 _), wp_bind, wp_update]
    refine wp_mono (createInitialLoop_high _ entries _ _ _ _) ?_ fun e he => Or.inl he
    intro _ _ hall
    exact absurd hall hhigh

lemma prunesLinked_iff : PrunesLinked ebss entries ↔
    (∃ e ∈ entries, ¬(e.baseAddrHigh = 0 ∧ e.lengthHigh = 0)) ∨
      ∀ page, highstart / pageSize + page ≤ kernelEnd (bootLimit ebss entries) →
        InRegion entries page := by
  have hpruned : ∀ page, page < prunedPages (bootLimit ebss entries) ↔
      highstart / pageSize + page ≤ kernelEnd (bootLimit ebss entries) := by
    intro page
    rw [prunedPages]
    omega
  have hspec := i686PhysmemAlloc_strict ebss entries
  simp only [hpruned] at hspec
  rw [PrunesLinked]
  cases hrun : (i686PhysmemAlloc (fun _ => fault .strayRemove) entries).run (bootAt ebss) with
  | ok r =>
      rcases r with ⟨_, s'⟩
      exact iff_of_true (by simp) (Or.inr (wp_run hspec hrun))
  | error e =>
      rcases wp_stop hspec hrun with ⟨rfl, hhigh⟩ | ⟨rfl, hhigh, page, hpage, hout⟩
      · exact iff_of_true (by simp) (Or.inl hhigh)
      · refine iff_of_false (by simp) ?_
        rintro (⟨e, he, hbad⟩ | hall)
        · exact hbad (hhigh e he)
        · exact hout (hall page hpage)

/-- **Which maps prune linked pages only.**  Every page that is pruned is on a list if and only if
the map is one that booting refuses, or every page up to the kernel end is in the page interval of a
usable entry.  When a region contains the kernel image and the array, that means that no page below
the first page of this region is in a hole. -/
theorem prune_linked_iff (ebss : ℕ) (entries : List MemoryMapEntry) :
    (PrunesLinked ebss entries ↔ (∃ e ∈ entries, ¬(e.baseAddrHigh = 0 ∧ e.lengthHigh = 0)) ∨
      ∀ page, highstart / pageSize + page ≤ kernelEnd (bootLimit ebss entries) →
        InRegion entries page) ∧
    ∀ region, HoldsKernel ebss entries region →
      (PrunesLinked ebss entries ↔ (∃ e ∈ entries, ¬(e.baseAddrHigh = 0 ∧ e.lengthHigh = 0)) ∨
        ∀ page < startpage region, InRegion entries page) := by
  refine ⟨prunesLinked_iff, fun region hregion => ?_⟩
  rw [prunesLinked_iff]
  refine or_congr_right ?_
  -- the pages from the first page of the region up to the kernel end are in the region
  rcases brkLimit_spec ebss entries 0xFFFFF000 hregion.array.2 (by norm_num) ebss
    hregion.array.1 with ⟨hle, hlt, -⟩
  have himage := hregion.image
  have hends := hregion.ends
  have hbase := hregion.base
  have hbelow := hregion.below
  have hstart : startpage region = pageUp region.baseAddrLow := by
    simp only [startpage, pageUp, pageSize, wrap32]
    omega
  have hlast : ∀ page, pageUp region.baseAddrLow ≤ page → page ≤ pageUp region.endAddr →
      InRegion entries page := by
    intro page hge hle
    have hlisted := (mem_listed_of_low hregion.type hbelow).mpr ⟨hge, hle⟩
    exact mem_flatMap_listed.mp (List.mem_flatMap.mpr ⟨region, hregion.mem, hlisted⟩)
  have hkernelEnd : kernelEnd (bootLimit ebss entries) = pageUp (bootLimit ebss entries) := by
    rw [kernelEnd, bootLimit, pageUp]
    simp only [pageSize]
    rw [wrap32_of_lt (by omega)]
  rw [hkernelEnd, hstart]
  simp only [bootLimit, pageUp, pageSize, highstart] at hends himage hlast ⊢
  constructor
  · intro hall page hpage
    exact hall page (by omega)
  · intro hall page hpage
    by_cases hlow : page < (region.baseAddrLow + 4095) / 4096
    · exact hall page hlow
    · exact hlast page (by omega) (by omega)

/-- One region from 0 to 128 MiB, with a kernel that ends at 2 MiB: there is no hole. -/
theorem prune_linked_whole : PrunesLinked 0xC0200000 [⟨0, 0, 0x8000000, 0, 1⟩] := by
  have hregion : HoldsKernel 0xC0200000 [⟨0, 0, 0x8000000, 0, 1⟩] ⟨0, 0, 0x8000000, 0, 1⟩ :=
    ⟨List.mem_singleton_self _, rfl, by decide, by decide,
      ⟨by decide, fun e he _ => by rw [List.mem_singleton.mp he]; decide⟩, by decide, by decide⟩
  refine ((prune_linked_iff 0xC0200000 [⟨0, 0, 0x8000000, 0, 1⟩]).2 _ hregion).mpr (Or.inr ?_)
  intro page hpage
  exact absurd hpage (Nat.not_lt_zero page)

/-- The memory map of a PC: the pages between the lower memory and 1 MiB are in no usable region,
but pruned. -/
theorem prune_stray_pages : ¬∀ (ebss : ℕ) (entries : List MemoryMapEntry) (region : MemoryMapEntry),
    HoldsKernel ebss entries region → PrunesLinked ebss entries := by
  intro hall
  set entries : List MemoryMapEntry := [⟨0, 0, 0x9FC00, 0, 1⟩, ⟨0x100000, 0, 0x7F00000, 0, 1⟩]
    with hentries
  have hregion : HoldsKernel 0xC0200000 entries ⟨0x100000, 0, 0x7F00000, 0, 1⟩ := by
    refine ⟨by simp [hentries], rfl, by decide, by decide, ⟨by decide, ?_⟩, by decide, by decide⟩
    simp only [hentries, List.forall_mem_cons, List.not_mem_nil, false_imp_iff, implies_true,
      and_true]
    exact ⟨fun _ => by decide, fun _ => by decide⟩
  rcases prunesLinked_iff.mp (hall 0xC0200000 entries _ hregion) with ⟨e, he, hhigh⟩ | hlisted
  · simp only [hentries, List.mem_cons, List.not_mem_nil, or_false] at he
    rcases he with rfl | rfl <;> exact hhigh ⟨rfl, rfl⟩
  · rcases hlisted 0xA1 (by decide) with ⟨e, he, -, hstart, hlast⟩
    simp only [hentries, List.mem_cons, List.not_mem_nil, or_false] at he
    rcases he with rfl | rfl
    · exact absurd hlast (by decide)
    · exact absurd hstart (by decide)

end Prune

end Akaris
