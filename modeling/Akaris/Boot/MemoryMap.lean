import Akaris.Boot.Defs
import Akaris.Lib.Shelves

/-!
# Which memory maps boot correctly

`i686_create_initial` rounds *both* ends of a region up, and its page loop includes the last page.
So the page behind the end of a region is listed although the region does not hold it, and a region
that ends in the last page of the address space, whose end wraps to page 0, lists its first page
only.

`i686CreateInitial_run` says what is on the lists after the loop: the pages `listed` of the usable
entries.  `listed_kinds` tells the three kinds of entry apart.

* **`memory_map_exact_iff`** — the lists hold the usable pages, each once, exactly for the maps
  described by `ExactMap`: no usable entry at all, or one that ends in the last page and a choice of
  empty entries that make up for the pages it leaves out.
-/

namespace Akaris

/-! ## What the loop lists -/

/-- The pages that the code puts on a list for an entry. -/
def listed (entry : MemoryMapEntry) : List ℕ :=
  if entry.type = 1 then List.range' (startpage entry) (lastpage entry + 1 - startpage entry)
  else []

/-- The page lies below 1 MiB. -/
def LowPage (page : ℕ) : Prop := wrap32 (page * pageSize) < 0x100000

instance (page : ℕ) : Decidable (LowPage page) := inferInstanceAs (Decidable (_ < _))

/-- The lists after further pages were inserted in order. -/
structure Inserted (pages : List ℕ) (s s' : Boot) : Prop where
  boot : s'.physmem.bootlist = (pages.filter (LowPage ·)).reverse ++ s.physmem.bootlist
  free : s'.physmem.freelist = (pages.filter (¬ LowPage ·)).reverse ++ s.physmem.freelist

lemma Inserted.nil {s s' : Boot} (hboot : s'.physmem.bootlist = s.physmem.bootlist)
    (hfree : s'.physmem.freelist = s.physmem.freelist) : Inserted [] s s' :=
  ⟨by simpa using hboot, by simpa using hfree⟩

lemma Inserted.trans {pages pages' : List ℕ} {s s' s'' : Boot} (h : Inserted pages s s')
    (h' : Inserted pages' s' s'') : Inserted (pages ++ pages') s s'' :=
  ⟨by simp [h'.boot, h.boot], by simp [h'.free, h.free]⟩

lemma insertPages_run (n curpage freePages : ℕ) (s : Boot) :
    ∃ freePages' s', (insertPages n curpage freePages).run s = .ok (freePages', s') ∧
      Inserted (List.range' curpage n) s s' ∧
      s'.identitymapLimit = s.identitymapLimit ∧
      s'.physmem.startAddress = s.physmem.startAddress ∧
      (freePages < 2 ^ 32 → freePages'
        = wrap32 (freePages + ((List.range' curpage n).filter (¬ LowPage ·)).length)) := by
  induction n generalizing curpage freePages s with
  | zero =>
      refine ⟨freePages, s, rfl, .nil rfl rfl, rfl, rfl, fun hlt => ?_⟩
      simp [wrap32_of_lt hlt]
  | succ n ih =>
      rw [insertPages, List.range'_succ]
      by_cases hlow : LowPage curpage
      · obtain ⟨freePages', s', hrun, hins, hlimit, hstart, hcount⟩ := ih (curpage + 1) freePages
          { s with physmem := { s.physmem with bootlist := curpage :: s.physmem.bootlist } }
        rw [if_pos (show wrap32 (curpage * pageSize) < 0x100000 from hlow), insertBootlist,
           Prog.run_bind_update]
        refine ⟨freePages', s', hrun, ⟨?_, ?_⟩, hlimit, hstart, fun hlt => ?_⟩
        · simp [hins.boot, hlow]
        · simp [hins.free, hlow]
        · rw [hcount hlt]
          simp [hlow]
      · obtain ⟨freePages', s', hrun, hins, hlimit, hstart, hcount⟩ :=
          ih (curpage + 1) (wrap32 (freePages + 1))
            { s with physmem := { s.physmem with freelist := curpage :: s.physmem.freelist } }
        rw [if_neg (show ¬ wrap32 (curpage * pageSize) < 0x100000 from hlow), insertFreelist,
           Prog.run_bind_update]
        refine ⟨freePages', s', hrun, ⟨?_, ?_⟩, hlimit, hstart, fun _ => ?_⟩
        · simp [hins.boot, hlow]
        · simp [hins.free, hlow]
        · rw [hcount (wrap32_lt _)]
          simp only [hlow, not_false_eq_true, decide_true, List.filter_cons_of_pos,
            List.length_cons, wrap32]
          omega

lemma virtmemBrk_run (newend : ℕ) (s : Boot) :
    (virtmemBrk newend).run s
      = .ok (s.identitymapLimit, { s with identitymapLimit := max s.identitymapLimit newend }) := by
  simp only [virtmemBrk, Prog.run_bind_gets]
  by_cases h : newend < s.identitymapLimit
  · rw [if_pos h, max_eq_left h.le]
    rfl
  · rw [if_neg h, max_eq_right (Nat.le_of_not_lt h)]
    rfl

/-- The limit of the identity map when the loop is done: the entries of usable regions, of 12 bytes
each, lie below it unless they wrap around. -/
def brkLimit (table : ℕ) (entries : List MemoryMapEntry) (limit : ℕ) : ℕ :=
  (entries.filter (·.type = 1)).foldl
    (fun limit e => max limit (wrap32 (table + sizeofPhysmemPage * (lastpage e + 1)))) limit

/-- The whole loop lists the pages of the entries one after the other. -/
lemma createInitialLoop_run (table : ℕ) (entries : List MemoryMapEntry)
    (hhigh : ∀ e ∈ entries, e.baseAddrHigh = 0 ∧ e.lengthHigh = 0)
    (totalPages freePages position : ℕ) (s : Boot) :
    ∃ s', (createInitialLoop table entries totalPages freePages position).run s = .ok ((), s') ∧
      Inserted (entries.flatMap listed) s s' ∧
      s'.identitymapLimit = brkLimit table entries s.identitymapLimit ∧
      s'.physmem.startAddress = s.physmem.startAddress ∧
      (s.physmem.freePages = freePages → freePages < 2 ^ 32 → s'.physmem.freePages
        = wrap32 (freePages + ((entries.flatMap listed).filter (¬ LowPage ·)).length)) := by
  induction entries generalizing totalPages freePages position s with
  | nil =>
      refine ⟨s, rfl, .nil rfl rfl, rfl, rfl, fun hfree hlt => ?_⟩
      simpa [wrap32_of_lt hlt] using hfree
  | cons entry entries ih =>
      obtain ⟨hentry, hentries⟩ := List.forall_mem_cons.mp hhigh
      rw [createInitialLoop, Prog.run_bind_assert hentry, List.flatMap_cons]
      by_cases htype : entry.type = 1
      · let position' := wrap32 (table + sizeofPhysmemPage * (lastpage entry + 1))
        have hbrk := virtmemBrk_run position' s
        obtain ⟨freePages', s₁, hrun, hins, hlimit, hstart, hcount⟩ :=
          insertPages_run (lastpage entry + 1 - startpage entry) (startpage entry) freePages
            { s with identitymapLimit := max s.identitymapLimit position' }
        have hlisted : listed entry
            = List.range' (startpage entry) (lastpage entry + 1 - startpage entry) :=
          if_pos htype
        simp only [if_pos htype, pure_bind]
        rw [Prog.run_bind_ok hbrk, Prog.run_bind_ok hrun, Prog.run_bind_update]
        obtain ⟨s', hrest, hins', hlimit', hstart', hcount'⟩ := ih hentries _ _ _ _
        refine ⟨s', hrest, ?_, ?_, hstart'.trans hstart, fun hsame hlt => ?_⟩
        · rw [hlisted]
          refine Inserted.trans ?_ hins'
          exact ⟨hins.boot, hins.free⟩
        · rw [hlimit', brkLimit, brkLimit, List.filter_cons_of_pos (by simpa using htype),
            List.foldl_cons]
          show List.foldl _ s₁.identitymapLimit _ = _
          rw [hlimit]
        · have hfreePages' := hcount hlt
          rw [hcount' rfl (hfreePages' ▸ wrap32_lt _), hfreePages', hlisted, List.filter_append,
            List.length_append]
          simp only [wrap32]
          omega
      · have hlisted : listed entry = [] := if_neg htype
        simp only [if_neg htype, pure_bind]
        rw [Prog.run_bind_update]
        obtain ⟨s', hrest, hins', hlimit', hstart', hcount'⟩ := ih hentries _ _ _ _
        refine ⟨s', hrest, ?_, ?_, hstart', fun hsame hlt => ?_⟩
        · rw [hlisted]
          refine Inserted.trans ?_ hins'
          exact .nil rfl rfl
        · rw [hlimit', brkLimit, brkLimit, List.filter_cons_of_neg (by simpa using htype)]
        · rw [hcount' rfl hlt, hlisted]
          rfl

/-- **What booting lists.** -/
theorem i686CreateInitial_run (entries : List MemoryMapEntry)
    (hhigh : ∀ e ∈ entries, e.baseAddrHigh = 0 ∧ e.lengthHigh = 0) (s : Boot) :
    ∃ s', (i686CreateInitial entries).run (initLists s) = .ok ((), s') ∧
      s'.physmem.bootlist = ((entries.flatMap listed).filter (LowPage ·)).reverse ∧
      s'.physmem.freelist = ((entries.flatMap listed).filter (¬ LowPage ·)).reverse ∧
      s'.identitymapLimit = brkLimit s.identitymapLimit entries s.identitymapLimit ∧
      s'.physmem.startAddress = s.identitymapLimit ∧
      (s.physmem.freePages = 0 → s'.physmem.freePages
        = wrap32 ((entries.flatMap listed).filter (¬ LowPage ·)).length) := by
  have hbrk := virtmemBrk_run 0 (initLists s)
  rw [i686CreateInitial, Prog.run_bind_ok hbrk, Prog.run_bind_update]
  obtain ⟨s', hrun, hins, hlimit, hstart, hcount⟩ :=
    createInitialLoop_run s.identitymapLimit entries hhigh 0 0 0 _
  refine ⟨s', hrun, by simpa [initLists] using hins.boot, by simpa [initLists] using hins.free,
    ?_, hstart, fun hfree => ?_⟩
  · rw [hlimit]
    congr 1
    exact Nat.max_eq_left (Nat.zero_le _)
  · rw [hcount hfree (by norm_num), Nat.zero_add]

/-! ## What the map says -/

/-- The first address behind an entry. -/
def MemoryMapEntry.endAddr (e : MemoryMapEntry) : ℕ := e.baseAddrLow + e.lengthLow

/-- Two entries have no address in common. -/
def MemoryMapEntry.Separate (e f : MemoryMapEntry) : Prop :=
  ∀ a, ¬(e.baseAddrLow ≤ a ∧ a < e.endAddr ∧ f.baseAddrLow ≤ a ∧ a < f.endAddr)

/-- A memory map below 4 GiB whose regions are pairwise disjoint, in any order. -/
structure MapBelow4G (entries : List MemoryMapEntry) : Prop where
  high : ∀ e ∈ entries, e.baseAddrHigh = 0 ∧ e.lengthHigh = 0
  base : ∀ e ∈ entries, e.baseAddrLow < 2 ^ 32
  ends : ∀ e ∈ entries, e.endAddr ≤ 2 ^ 32
  separate : entries.Pairwise MemoryMapEntry.Separate

/-- All bytes of the page lie in the region of the entry. -/
def MemoryMapEntry.HoldsPage (e : MemoryMapEntry) (page : ℕ) : Prop :=
  e.baseAddrLow ≤ page * pageSize ∧ page * pageSize + pageSize ≤ e.endAddr

/-- All bytes of the page lie in a usable region. -/
def UsablePage (entries : List MemoryMapEntry) (page : ℕ) : Prop :=
  ∃ e ∈ entries, e.type = 1 ∧ e.HoldsPage page

/-- The lists hold the usable pages and no others, each page once, those below 1 MiB on
`bootlist`. -/
structure ExactLists (entries : List MemoryMapEntry) (p : I686Physmem) : Prop where
  once : ∀ page, (p.bootlist ++ p.freelist).count page ≤ 1
  boot : ∀ page, page ∈ p.bootlist ↔ UsablePage entries page ∧ page * pageSize < 0x100000
  free : ∀ page, page ∈ p.freelist ↔ UsablePage entries page ∧ ¬ page * pageSize < 0x100000

/-- The page at or above an address. -/
def pageUp (addr : ℕ) : ℕ := (addr + 4095) / 4096

/-- The entries `others` make up for the pages that the code leaves out of `top`, an entry that
ends in the last page and holds at least one whole page: they are empty, and each whole page of
`top` but the first is the base of exactly one of them, rounded up. -/
structure MadeUp (top : MemoryMapEntry) (others : List MemoryMapEntry) : Prop where
  base : top.baseAddrLow ≤ 2 ^ 32 - 4096
  ends : 2 ^ 32 - 4096 < top.endAddr
  first : pageUp top.baseAddrLow < top.endAddr / 4096
  empty : ∀ e ∈ others, e.lengthLow = 0 ∧ e.baseAddrLow ≤ 2 ^ 32 - 4096
  pages : (others.map fun e => pageUp e.baseAddrLow).Perm
    (List.range' (pageUp top.baseAddrLow + 1) (top.endAddr / 4096 - (pageUp top.baseAddrLow + 1)))

/-- The maps that boot correctly. -/
def ExactMap (entries : List MemoryMapEntry) : Prop :=
  entries.filter (·.type = 1) = [] ∨
    ∃ top others, (entries.filter (·.type = 1)).Perm (top :: others) ∧ MadeUp top others

section Exact

variable {entries : List MemoryMapEntry} {e f : MemoryMapEntry} {page : ℕ}

lemma lastpage_eq (e : MemoryMapEntry) : lastpage e
    = max (startpage e) (wrap32 (e.baseAddrLow + e.lengthLow + (pageSize - 1)) / pageSize) := by
  simp only [lastpage]
  split_ifs <;> omega

/-- An entry that ends below the last page lists its whole pages and the page behind them. -/
lemma mem_listed_of_low (htype : e.type = 1) (hend : e.endAddr ≤ 2 ^ 32 - 4096) :
    page ∈ listed e ↔ pageUp e.baseAddrLow ≤ page ∧ page ≤ pageUp e.endAddr := by
  simp only [MemoryMapEntry.endAddr] at hend ⊢
  have hstart : startpage e = pageUp e.baseAddrLow := by
    simp only [startpage, pageUp, pageSize, wrap32]
    omega
  have hlast : lastpage e = pageUp (e.baseAddrLow + e.lengthLow) := by
    simp only [lastpage_eq, hstart, pageUp, pageSize, wrap32]
    omega
  rw [listed, if_pos htype, List.mem_range'_1, hstart, hlast]
  simp only [pageUp]
  omega

/-- An entry that ends in the last page lists the page at its base. -/
lemma listed_of_top (htype : e.type = 1) (hbase : e.baseAddrLow ≤ 2 ^ 32 - 4096)
    (hend : 2 ^ 32 - 4096 < e.endAddr) (hend' : e.endAddr ≤ 2 ^ 32) :
    listed e = [pageUp e.baseAddrLow] := by
  simp only [MemoryMapEntry.endAddr] at hend hend'
  have hstart : startpage e = pageUp e.baseAddrLow := by
    simp only [startpage, pageUp, pageSize, wrap32]
    omega
  have hlast : lastpage e = startpage e := by
    simp only [lastpage_eq, hstart, pageUp, pageSize, wrap32]
    omega
  rw [listed, if_pos htype, hlast, hstart, Nat.add_sub_cancel_left]
  rfl

/-- An empty entry lists the page at its base. -/
lemma listed_of_empty (htype : e.type = 1) (hbase : e.baseAddrLow ≤ 2 ^ 32 - 4096)
    (hempty : e.lengthLow = 0) : listed e = [pageUp e.baseAddrLow] := by
  have hstart : startpage e = pageUp e.baseAddrLow := by
    simp only [startpage, pageUp, pageSize, wrap32]
    omega
  have hlast : lastpage e = startpage e := by
    simp only [lastpage_eq, hstart, hempty, pageUp, pageSize, wrap32]
    omega
  rw [listed, if_pos htype, hlast, hstart, Nat.add_sub_cancel_left]
  rfl

/-- An entry that lies in the last page lists page 0. -/
lemma listed_of_last (htype : e.type = 1) (hbase : 2 ^ 32 - 4096 < e.baseAddrLow)
    (hbase' : e.baseAddrLow < 2 ^ 32) (hend : e.endAddr ≤ 2 ^ 32) : listed e = [0] := by
  simp only [MemoryMapEntry.endAddr] at hend
  have hstart : startpage e = 0 := by
    simp only [startpage, pageSize, wrap32]
    omega
  have hlast : lastpage e = 0 := by
    simp only [lastpage_eq, hstart, pageSize, wrap32]
    omega
  rw [listed, if_pos htype, hlast, hstart]
  rfl

lemma HoldsPage.lt (hend : e.endAddr ≤ 2 ^ 32) (hpage : e.HoldsPage page) : page < 2 ^ 20 := by
  obtain ⟨-, hlt⟩ := hpage
  simp only [pageSize] at hlt
  omega

lemma listed_lt (hpage : page ∈ listed e) : page < 2 ^ 20 := by
  by_cases htype : e.type = 1
  · rw [listed, if_pos htype, List.mem_range'_1, lastpage_eq] at hpage
    simp only [startpage, pageSize, wrap32] at hpage
    omega
  · rw [listed, if_neg htype] at hpage
    exact absurd hpage List.not_mem_nil

lemma lowPage_iff (hpage : page < 2 ^ 20) : LowPage page ↔ page * pageSize < 0x100000 := by
  rw [LowPage, wrap32_of_lt (by simp only [pageSize]; omega)]

/-- **Reduction to what is listed.** -/
lemma exactLists_iff (h : MapBelow4G entries) {p : I686Physmem}
    (hboot : p.bootlist = ((entries.flatMap listed).filter (LowPage ·)).reverse)
    (hfree : p.freelist = ((entries.flatMap listed).filter (¬ LowPage ·)).reverse) :
    ExactLists entries p ↔
      (entries.flatMap listed).Nodup ∧
        ∀ page, page ∈ entries.flatMap listed ↔ UsablePage entries page := by
  have hperm : (p.bootlist ++ p.freelist).Perm (entries.flatMap listed) := by
    rw [hboot, hfree]
    refine ((List.reverse_perm _).append (List.reverse_perm _)).trans ?_
    simpa only [decide_not] using
      List.filter_append_perm (fun page => decide (LowPage page)) (entries.flatMap listed)
  have hcount : ∀ page, (p.bootlist ++ p.freelist).count page
      = (entries.flatMap listed).count page := fun page => hperm.count_eq page
  have hlisted : ∀ page, page ∈ entries.flatMap listed →
      (LowPage page ↔ page * pageSize < 0x100000) := by
    intro page hpage
    obtain ⟨e, -, hpage⟩ := List.mem_flatMap.mp hpage
    exact lowPage_iff (listed_lt hpage)
  have husable : ∀ page, UsablePage entries page →
      (LowPage page ↔ page * pageSize < 0x100000) := by
    rintro page ⟨e, he, -, hpage⟩
    exact lowPage_iff (HoldsPage.lt (h.ends e he) hpage)
  have hmemBoot : ∀ page, page ∈ p.bootlist ↔ page ∈ entries.flatMap listed ∧ LowPage page := by
    intro page
    rw [hboot, List.mem_reverse, List.mem_filter, decide_eq_true_eq]
  have hmemFree : ∀ page, page ∈ p.freelist ↔ page ∈ entries.flatMap listed ∧ ¬ LowPage page := by
    intro page
    rw [hfree, List.mem_reverse, List.mem_filter, decide_eq_true_eq]
  constructor
  · intro hexact
    refine ⟨List.nodup_iff_count_le_one.mpr fun page => hcount page ▸ hexact.once page, ?_⟩
    intro page
    constructor
    · intro hpage
      by_cases hlow : LowPage page
      · exact ((hexact.boot page).mp ((hmemBoot page).mpr ⟨hpage, hlow⟩)).1
      · exact ((hexact.free page).mp ((hmemFree page).mpr ⟨hpage, hlow⟩)).1
    · intro hpage
      by_cases hlow : LowPage page
      · exact ((hmemBoot page).mp ((hexact.boot page).mpr ⟨hpage, (husable page hpage).mp hlow⟩)).1
      · exact ((hmemFree page).mp ((hexact.free page).mpr
          ⟨hpage, mt (husable page hpage).mpr hlow⟩)).1
  · rintro ⟨hnodup, hmem⟩
    refine ⟨fun page => ?_, fun page => ?_, fun page => ?_⟩
    · rw [hcount]
      exact List.nodup_iff_count_le_one.mp hnodup page
    · rw [hmemBoot, hmem]
      exact and_congr_right fun hpage => husable page hpage
    · rw [hmemFree, hmem]
      exact and_congr_right fun hpage => not_congr (husable page hpage)

/-! ## The condition -/

lemma flatMap_listed_filter (entries : List MemoryMapEntry) :
    entries.flatMap listed = (entries.filter (·.type = 1)).flatMap listed := by
  induction entries with
  | nil => rfl
  | cons e entries ih =>
      by_cases htype : e.type = 1
      · rw [List.filter_cons_of_pos (by simpa using htype), List.flatMap_cons, List.flatMap_cons,
          ih]
      · have hlisted : listed e = [] := if_neg htype
        rw [List.filter_cons_of_neg (by simpa using htype), List.flatMap_cons, hlisted, ih]
        rfl

/-- The usable entries of a map below 4 GiB. -/
structure Usable (entries : List MemoryMapEntry) : Prop where
  type : ∀ e ∈ entries, e.type = 1
  base : ∀ e ∈ entries, e.baseAddrLow < 2 ^ 32
  ends : ∀ e ∈ entries, e.endAddr ≤ 2 ^ 32
  separate : entries.Pairwise MemoryMapEntry.Separate

lemma MapBelow4G.usable (h : MapBelow4G entries) : Usable (entries.filter (·.type = 1)) where
  type := fun e he => by simpa using (List.mem_filter.mp he).2
  base := fun e he => h.base e (List.mem_filter.mp he).1
  ends := fun e he => h.ends e (List.mem_filter.mp he).1
  separate := h.separate.sublist List.filter_sublist

lemma usablePage_iff : UsablePage entries page ↔
    ∃ e ∈ entries.filter (·.type = 1), e.HoldsPage page := by
  simp only [UsablePage, List.mem_filter, decide_eq_true_eq, and_assoc]

/-- No page is listed twice, and the usable pages are listed. -/
def ListedExactly (entries : List MemoryMapEntry) : Prop :=
  (entries.flatMap listed).Nodup ∧
    ∀ page, page ∈ entries.flatMap listed ↔ ∃ e ∈ entries, e.HoldsPage page

/-- The page behind the end of a region that ends below the last page is listed, and the region
does not hold it. -/
lemma page_behind (htype : e.type = 1) (hend : e.endAddr ≤ 2 ^ 32 - 4096) :
    pageUp e.endAddr ∈ listed e ∧ ¬ e.HoldsPage (pageUp e.endAddr) := by
  rw [mem_listed_of_low htype hend]
  simp only [MemoryMapEntry.HoldsPage, MemoryMapEntry.endAddr, pageUp, pageSize]
  omega

/-- An entry that ends below the last page lists the pages it holds. -/
lemma mem_listed_of_holds (htype : e.type = 1) (hend : e.endAddr ≤ 2 ^ 32 - 4096)
    (hpage : e.HoldsPage page) : page ∈ listed e := by
  rw [mem_listed_of_low htype hend]
  obtain ⟨hge, hlt⟩ := hpage
  simp only [pageUp, pageSize, MemoryMapEntry.endAddr] at hge hlt ⊢
  omega

/-- Where an entry lies. -/
def MemoryMapEntry.Top (e : MemoryMapEntry) : Prop :=
  e.baseAddrLow ≤ 2 ^ 32 - 4096 ∧ 2 ^ 32 - 4096 < e.endAddr

section ListedExactly

variable {U : List MemoryMapEntry} {top : MemoryMapEntry}

/-- Two entries that list the same page are one. -/
lemma ListedExactly.eq_of_listed (hex : ListedExactly U) (he : e ∈ U) (hf : f ∈ U)
    (hpe : page ∈ listed e) (hpf : page ∈ listed f) : e = f := by
  by_contra hne
  exact disjoint_of_flatMap_nodup hex.1 he hf hne page hpe hpf

lemma ListedExactly.held (hex : ListedExactly U) (he : e ∈ U) (hpage : page ∈ listed e) :
    ∃ f ∈ U, f.HoldsPage page :=
  (hex.2 page).mp (List.mem_flatMap.mpr ⟨e, he, hpage⟩)

/-- No usable entry lies in the last page: page 0 would be listed for it. -/
lemma ListedExactly.base_le (hU : Usable U) (hex : ListedExactly U) (he : e ∈ U) :
    e.baseAddrLow ≤ 2 ^ 32 - 4096 := by
  by_contra hbase
  have hlisted := listed_of_last (hU.type e he) (Nat.lt_of_not_le hbase) (hU.base e he)
    (hU.ends e he)
  have hzero : 0 ∈ listed e := hlisted ▸ List.mem_singleton_self 0
  obtain ⟨f, hf, hheld⟩ := hex.held he hzero
  have hfbase : f.baseAddrLow = 0 := by
    obtain ⟨hge, -⟩ := hheld
    omega
  have hfzero : 0 ∈ listed f := by
    by_cases hend : f.endAddr ≤ 2 ^ 32 - 4096
    · exact mem_listed_of_holds (hU.type f hf) hend hheld
    · rw [listed_of_top (hU.type f hf) (by omega) (Nat.lt_of_not_le hend) (hU.ends f hf), hfbase]
      exact List.mem_singleton_self 0
  rw [hex.eq_of_listed he hf hzero hfzero, hfbase] at hbase
  omega

/-- The page behind a region that ends below the last page is held by an entry that reaches into
the last page. -/
lemma ListedExactly.top_of_low (hU : Usable U) (hex : ListedExactly U) (he : e ∈ U)
    (hend : e.endAddr ≤ 2 ^ 32 - 4096) :
    ∃ f ∈ U, f.Top ∧ f.HoldsPage (pageUp e.endAddr) := by
  obtain ⟨hlisted, hnot⟩ := page_behind (hU.type e he) hend
  obtain ⟨f, hf, hheld⟩ := hex.held he hlisted
  refine ⟨f, hf, ⟨hex.base_le hU hf, ?_⟩, hheld⟩
  by_contra hlow
  have hlisted' := mem_listed_of_holds (hU.type f hf) (by omega) hheld
  have heq := hex.eq_of_listed he hf hlisted hlisted'
  subst heq
  exact hnot hheld

lemma Usable.separate_of_ne (hU : Usable U) (he : e ∈ U) (hf : f ∈ U) (hne : e ≠ f) :
    e.Separate f := by
  have hsymm : Std.Symm MemoryMapEntry.Separate :=
    ⟨fun _ _ h a ha => h a ⟨ha.2.2.1, ha.2.2.2, ha.1, ha.2.1⟩⟩
  exact hU.separate.forall he hf hne

/-- Only one entry reaches into the last page. -/
lemma Usable.top_unique (hU : Usable U) (he : e ∈ U) (hf : f ∈ U) (hetop : e.Top) (hftop : f.Top) :
    e = f := by
  by_contra hne
  exact hU.separate_of_ne he hf hne (2 ^ 32 - 4096) ⟨hetop.1, hetop.2, hftop.1, hftop.2⟩

lemma ListedExactly.exists_top (hU : Usable U) (hex : ListedExactly U) (he : e ∈ U) :
    ∃ top ∈ U, top.Top := by
  by_cases hend : e.endAddr ≤ 2 ^ 32 - 4096
  · obtain ⟨f, hf, htop, -⟩ := hex.top_of_low hU he hend
    exact ⟨f, hf, htop⟩
  · exact ⟨e, he, hex.base_le hU he, Nat.lt_of_not_le hend⟩

lemma Usable.listed_top (hU : Usable U) (he : e ∈ U) (htop : e.Top) :
    listed e = [pageUp e.baseAddrLow] :=
  listed_of_top (hU.type e he) htop.1 htop.2 (hU.ends e he)

/-- **An exact map is made up for.** -/
lemma ListedExactly.madeUp (hU : Usable U) (hex : ListedExactly U) (htopU : top ∈ U)
    (htop : top.Top) : MadeUp top (U.erase top) := by
  have hperm := List.perm_cons_erase htopU
  have hlistedTop := hU.listed_top htopU htop
  have hfirst : pageUp top.baseAddrLow ∈ listed top := hlistedTop ▸ List.mem_singleton_self _
  -- the first page of `top` is held by `top`
  have hheldTop : top.HoldsPage (pageUp top.baseAddrLow) := by
    obtain ⟨f, hf, hheld⟩ := hex.held htopU hfirst
    by_cases hend : f.endAddr ≤ 2 ^ 32 - 4096
    · have heq := hex.eq_of_listed htopU hf hfirst (mem_listed_of_holds (hU.type f hf) hend hheld)
      subst heq
      exact hheld
    · have heq := hU.top_unique htopU hf htop ⟨hex.base_le hU hf, Nat.lt_of_not_le hend⟩
      subst heq
      exact hheld
  have hnodup := (hperm.flatMap_right listed).nodup_iff.mp hex.1
  rw [List.flatMap_cons, hlistedTop, List.singleton_append, List.nodup_cons] at hnodup
  obtain ⟨hnotFirst, hnodup⟩ := hnodup
  -- every other entry is empty and lists one page of `top`
  have hothers : ∀ e ∈ U.erase top, e.lengthLow = 0 ∧ e.baseAddrLow ≤ 2 ^ 32 - 4096 ∧
      listed e = [pageUp e.baseAddrLow] := by
    intro e he
    have heU := List.mem_of_mem_erase he
    have hne : e ≠ top := by
      rintro rfl
      exact hnotFirst (List.mem_flatMap.mpr ⟨e, he, hfirst⟩)
    have hlow : e.endAddr ≤ 2 ^ 32 - 4096 := by
      by_contra hend
      exact hne (hU.top_unique heU htopU ⟨hex.base_le hU heU, Nat.lt_of_not_le hend⟩ htop)
    obtain ⟨f, hf, hftop, hheld⟩ := hex.top_of_low hU heU hlow
    have heq := hU.top_unique htopU hf htop hftop
    subst heq
    have hbehind := (page_behind (hU.type e heU) hlow).1
    have hneFirst : pageUp e.endAddr ≠ pageUp top.baseAddrLow := fun heq =>
      hnotFirst (List.mem_flatMap.mpr ⟨e, he, heq ▸ hbehind⟩)
    have hsep := hU.separate_of_ne heU htopU hne
    have hempty : e.lengthLow = 0 := by
      -- otherwise one of the two bases would lie in both regions
      have hsep₁ := hsep e.baseAddrLow
      have hsep₂ := hsep top.baseAddrLow
      obtain ⟨hge, hlt⟩ := hheld
      obtain ⟨hbase, hend⟩ := htop
      simp only [MemoryMapEntry.endAddr, pageUp, pageSize] at hge hlt hneFirst hsep₁ hsep₂ hlow hend
      omega
    exact ⟨hempty, hex.base_le hU heU,
      listed_of_empty (hU.type e heU) (hex.base_le hU heU) hempty⟩
  have hmap : (U.erase top).flatMap listed
      = (U.erase top).map fun e => pageUp e.baseAddrLow := by
    rw [List.map_eq_flatMap]
    exact List.flatMap_congr fun e he => (hothers e he).2.2
  have hheldBy : ∀ page, (∃ f ∈ U, f.HoldsPage page) ↔ top.HoldsPage page := by
    intro page
    refine ⟨?_, fun hheld => ⟨top, htopU, hheld⟩⟩
    rintro ⟨f, hf, hheld⟩
    rcases List.mem_cons.mp (hperm.mem_iff.mp hf) with rfl | hf
    · exact hheld
    · obtain ⟨hge, hlt⟩ := hheld
      have hempty := (hothers f hf).1
      simp only [MemoryMapEntry.endAddr, pageSize] at hge hlt
      omega
  have hmem : ∀ page, page = pageUp top.baseAddrLow ∨ page ∈ (U.erase top).flatMap listed ↔
      top.HoldsPage page := by
    intro page
    rw [← hheldBy, ← hex.2, (hperm.flatMap_right listed).mem_iff, List.flatMap_cons, hlistedTop,
      List.singleton_append, List.mem_cons]
  refine ⟨htop.1, htop.2, ?_, fun e he => ⟨(hothers e he).1, (hothers e he).2.1⟩, ?_⟩
  · obtain ⟨hge, hlt⟩ := hheldTop
    simp only [MemoryMapEntry.endAddr, pageSize] at hge hlt ⊢
    omega
  · rw [← hmap, List.perm_ext_iff_of_nodup hnodup List.nodup_range']
    intro page
    rw [List.mem_range'_1]
    constructor
    · intro hin
      have hne : page ≠ pageUp top.baseAddrLow := by
        rintro rfl
        exact hnotFirst hin
      obtain ⟨hge, hlt⟩ := (hmem page).mp (Or.inr hin)
      simp only [MemoryMapEntry.endAddr, pageUp, pageSize] at hge hlt hne ⊢
      omega
    · rintro ⟨hge, hlt⟩
      have hheld : top.HoldsPage page := by
        simp only [MemoryMapEntry.HoldsPage, MemoryMapEntry.endAddr, pageUp, pageSize]
          at hge hlt ⊢
        omega
      exact ((hmem page).mpr hheld).resolve_left (by omega)

/-- **A map that is made up for is exact.** -/
lemma MadeUp.listedExactly (hU : Usable U) {others : List MemoryMapEntry}
    (hperm : U.Perm (top :: others)) (h : MadeUp top others) : ListedExactly U := by
  have hmem : ∀ e, e ∈ top :: others → e ∈ U := fun e he => hperm.mem_iff.mpr he
  have htop : top.Top := ⟨h.base, h.ends⟩
  have hlistedTop := hU.listed_top (hmem top List.mem_cons_self) htop
  have hmap : others.flatMap listed = others.map fun e => pageUp e.baseAddrLow := by
    rw [List.map_eq_flatMap]
    refine List.flatMap_congr fun e he => ?_
    exact listed_of_empty (hU.type e (hmem e (List.mem_cons_of_mem _ he))) (h.empty e he).2
      (h.empty e he).1
  have hfirst := h.first
  have hall : (U.flatMap listed).Perm
      (List.range' (pageUp top.baseAddrLow) (top.endAddr / 4096 - pageUp top.baseAddrLow)) := by
    refine (hperm.flatMap_right listed).trans ?_
    rw [List.flatMap_cons, hlistedTop, hmap, List.singleton_append]
    have hlen : top.endAddr / 4096 - pageUp top.baseAddrLow
        = top.endAddr / 4096 - (pageUp top.baseAddrLow + 1) + 1 := by omega
    rw [hlen, List.range'_succ]
    exact h.pages.cons _
  refine ⟨hall.nodup_iff.mpr List.nodup_range', fun page => ?_⟩
  rw [hall.mem_iff, List.mem_range'_1]
  constructor
  · rintro ⟨hge, hlt⟩
    refine ⟨top, hmem top List.mem_cons_self, ?_⟩
    simp only [MemoryMapEntry.HoldsPage, MemoryMapEntry.endAddr, pageUp, pageSize] at hge hlt ⊢
    omega
  · rintro ⟨e, he, hge, hlt⟩
    rcases List.mem_cons.mp (hperm.mem_iff.mp he) with rfl | he
    · simp only [MemoryMapEntry.endAddr, pageUp, pageSize] at hge hlt ⊢
      omega
    · have hempty := (h.empty e he).1
      simp only [MemoryMapEntry.endAddr, pageSize] at hge hlt
      omega

/-- **Which usable entries list exactly the pages they hold.** -/
lemma listedExactly_iff (hU : Usable U) :
    ListedExactly U ↔ U = [] ∨ ∃ top others, U.Perm (top :: others) ∧ MadeUp top others := by
  constructor
  · intro hex
    cases hUe : U with
    | nil => exact Or.inl rfl
    | cons e rest =>
        have he : e ∈ U := hUe ▸ List.mem_cons_self
        obtain ⟨top, htopU, htop⟩ := hex.exists_top hU he
        rw [← hUe]
        exact Or.inr ⟨top, _, List.perm_cons_erase htopU, hex.madeUp hU htopU htop⟩
  · rintro (rfl | ⟨top, others, hperm, h⟩)
    · exact ⟨List.nodup_nil, by simp⟩
    · exact h.listedExactly hU hperm

end ListedExactly

/-- **Which maps boot correctly.**  Booting from a map below 4 GiB with disjoint regions always
returns, and the lists hold the usable pages, each once, if and only if the map has no usable entry
or is made up for. -/
theorem memory_map_exact_iff (h : MapBelow4G entries) (s : Boot) :
    ∃ s', (i686CreateInitial entries).run (initLists s) = .ok ((), s') ∧
      (ExactLists entries s'.physmem ↔ ExactMap entries) := by
  obtain ⟨s', hrun, hboot, hfree, -⟩ := i686CreateInitial_run entries h.high s
  refine ⟨s', hrun, ?_⟩
  rw [exactLists_iff h hboot hfree, ExactMap, ← listedExactly_iff h.usable, ListedExactly,
    ← flatMap_listed_filter]
  exact and_congr_right fun _ => forall_congr' fun page => iff_congr Iff.rfl usablePage_iff

/-- A boot state before anything is listed. -/
def unbooted : Boot := ⟨⟨[], [], 0, 0, 0, 0⟩, 0xC0200000⟩

/-- The last three pages are usable, and two empty entries make up for the last two of them. -/
def madeUpMap : List MemoryMapEntry :=
  [⟨0x9FC00, 0, 0x400, 0, 2⟩, ⟨0xFFFFF000, 0, 0, 0, 1⟩, ⟨0xFFFFD000, 0, 0x3000, 0, 1⟩,
    ⟨0xFFFFE000, 0, 0, 0, 1⟩]

lemma madeUpMap_below : MapBelow4G madeUpMap := by
  refine ⟨by decide, by decide, by decide, ?_⟩
  simp only [madeUpMap, List.pairwise_cons, List.mem_cons, List.not_mem_nil, or_false,
    forall_eq_or_imp, forall_eq, MemoryMapEntry.Separate, MemoryMapEntry.endAddr]
  refine ⟨⟨?_, ?_, ?_⟩, ⟨?_, ?_⟩, ?_, ?_⟩
  all_goals first | (intro a; omega) | simp

lemma madeUpMap_exact : ExactMap madeUpMap := by
  refine Or.inr ⟨⟨0xFFFFD000, 0, 0x3000, 0, 1⟩,
    [⟨0xFFFFF000, 0, 0, 0, 1⟩, ⟨0xFFFFE000, 0, 0, 0, 1⟩], ?_, ?_⟩
  · exact List.Perm.swap _ _ _
  · exact ⟨by decide, by decide, by decide, by decide, List.Perm.swap _ _ _⟩

/-- Such a map boots correctly. -/
theorem memory_map_exact_made_up : ∃ s',
    (i686CreateInitial madeUpMap).run (initLists unbooted) = .ok ((), s') ∧
      ExactLists madeUpMap s'.physmem ∧ 0xFFFFE ∈ s'.physmem.freelist := by
  rcases memory_map_exact_iff madeUpMap_below unbooted with ⟨s', hrun, hiff⟩
  have hexact := hiff.mpr madeUpMap_exact
  refine ⟨s', hrun, hexact, (hexact.free 0xFFFFE).mpr ⟨?_, by decide⟩⟩
  exact ⟨⟨0xFFFFD000, 0, 0x3000, 0, 1⟩, by decide, rfl, by decide, by decide⟩

/-- The lower memory of a PC, which ends inside page 159: that page is listed, and so is the one
behind it. -/
theorem memory_map_not_exact : ¬ ∀ entries s, MapBelow4G entries →
    ∃ s', (i686CreateInitial entries).run (initLists s) = .ok ((), s') ∧
      ExactLists entries s'.physmem := by
  intro hall
  have hmap : MapBelow4G [⟨0, 0, 0x9FC00, 0, 1⟩] := ⟨by decide, by decide, by decide, by simp⟩
  obtain ⟨s', hrun, hexact⟩ := hall _ unbooted hmap
  obtain ⟨s'', hrun', hboot, -⟩ :=
    i686CreateInitial_run [⟨0, 0, 0x9FC00, 0, 1⟩] (by decide) unbooted
  obtain rfl : s' = s'' := by
    rw [hrun] at hrun'
    simpa using hrun'
  have hlisted : 160 ∈ s'.physmem.bootlist := by
    rw [hboot]
    decide +kernel
  obtain ⟨⟨e, he, -, -, hlt⟩, -⟩ := (hexact.boot 160).mp hlisted
  obtain rfl := List.mem_singleton.mp he
  revert hlt
  decide

end Exact

end Akaris
