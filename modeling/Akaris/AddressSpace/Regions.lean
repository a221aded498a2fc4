import Akaris.AddressSpace.Defs

/-!
# The regions of an address space

`common_address_space_init_region` compares the ends of regions as 32-bit pointers.  A region that
reaches the end of the address space ends at 0 there, so every other region counts as lying above
it, and one that wraps around ends low.  `OverlapFree` is the invariant that holds as long as no
region is requested that reaches the end: regions lie in the address space one beside the other.

* **`regions_disjoint`** — in a run whose requests all stay below the end of the address space, no
  two regions share an address, and a request that would share one is refused.
* **`region_rounding_iff`** — for which requests the stored location is the documented rounding.
* **`refused_request_iff`** — when a refused request leaves the regions as they were: the location
  is stored before the overlap test, so moving a region that is on the list is not undone.
-/

namespace Akaris

variable {ε σ : Type}

/-! ## Rounding -/

/-- Where a region requested at `start` begins: rounded down in the lower half of the address
space, up in the upper half, where the `long` is negative. -/
def regionStart (start : ℕ) : ℕ :=
  if start < 2 ^ 31 then start / 4096 * 4096 else (start + 4095) / 4096 * 4096 % 2 ^ 32

/-- How long a region requested with `len` bytes is. -/
def regionLength (len : ℕ) : ℕ := (len + 4095) / 4096 * 4096 % 2 ^ 32

lemma roundStart_eq {start : ℕ} (h : start < 2 ^ 32) :
    roundStart 4096 start = regionStart start := by
  unfold roundStart regionStart toLong ofLong
  by_cases hlow : start < 2 ^ 31
  · rw [if_pos hlow, if_pos hlow, Int.tmod_eq_emod_of_nonneg (by omega)]
    omega
  · have hneg : ((start : ℤ) - 2 ^ 32).tmod (4096 : ℕ) = -((2 ^ 32 - (start : ℤ)) % 4096) := by
      rw [← Int.neg_sub, Int.neg_tmod, Int.tmod_eq_emod_of_nonneg (by omega)]
      rfl
    rw [if_neg hlow, if_neg hlow, hneg]
    omega

lemma roundLen_eq (len : ℕ) : roundLen 4096 len = regionLength len := by
  unfold roundLen regionLength sub32 wrap32
  omega

lemma regionStart_lt {start : ℕ} (h : start < 2 ^ 32) : regionStart start < 2 ^ 32 := by
  unfold regionStart
  split_ifs <;> omega

lemma regionLength_lt (len : ℕ) : regionLength len < 2 ^ 32 := Nat.mod_lt _ (by norm_num)

/-! ## The overlap test -/

/-- The addresses of a region: `length` bytes from `start` on, modulo the size of the address
space. -/
def MemoryRegion.addresses (mr : MemoryRegion) : Set ℕ :=
  { a | ∃ i < mr.length, a = (mr.start + i) % 2 ^ 32 }

/-- A region that ends before the address space does. -/
def MemoryRegion.InSpace (mr : MemoryRegion) : Prop := mr.start + mr.length < 2 ^ 32

namespace MemoryRegion

variable {mr other : MemoryRegion}

lemma mem_addresses (h : mr.InSpace) {a : ℕ} :
    a ∈ mr.addresses ↔ mr.start ≤ a ∧ a < mr.start + mr.length := by
  have hend : mr.start + mr.length < 2 ^ 32 := h
  constructor
  · rintro ⟨i, hi, rfl⟩
    omega
  · rintro ⟨hge, hlt⟩
    exact ⟨a - mr.start, by omega, by omega⟩

/-- Regions of the address space one of which lies above the other share nothing. -/
lemma disjoint_of_beside (h : mr.InSpace) (ho : other.InSpace)
    (hbeside : other.start + other.length ≤ mr.start ∨ mr.start + mr.length ≤ other.start) :
    Disjoint mr.addresses other.addresses := by
  rw [Set.disjoint_left]
  intro a ha hao
  rw [mem_addresses h] at ha
  rw [mem_addresses ho] at hao
  omega

/-- **What the comparison decides** for regions of the address space. -/
lemma compareToRegion_ne_zero (h : mr.InSpace) (ho : other.InSpace) :
    memoryRegionCompareToRegion mr other ≠ 0 ↔
      other.start + other.length ≤ mr.start ∨ mr.start + mr.length ≤ other.start := by
  simp only [memoryRegionCompareToRegion, wrap32_of_lt h, wrap32_of_lt ho]
  split_ifs <;> simp_all

end MemoryRegion

lemma availableIn_iff {region : ℕ → MemoryRegion} {mr : ℕ} {l : List ℕ} :
    availableIn region mr l = true ↔
      ∀ m ∈ l, memoryRegionCompareToRegion (region mr) (region m) ≠ 0 := by
  induction l with
  | nil => simp [availableIn]
  | cons m l ih =>
      rw [availableIn, List.forall_mem_cons]
      by_cases h : memoryRegionCompareToRegion (region mr) (region m) = 0
      · simp [h]
      · simp [h, ih]

/-! ## One request -/

/-- The region structure `mr` holds once its location is set. -/
def AsMem.setLocation (s : AsMem) (mr start len : ℕ) : AsMem :=
  { s with region :=
      Function.update s.region mr { s.region mr with start := start, length := len } }

/-- **What a request does**: it stores the rounded location, and adds the region to the list
unless the comparison finds a collision. -/
lemma initRegion_run_round (c : Cpu ε σ) {mr start : ℕ} (hmr : mr ≠ 0) (hstart : start ≠ 0)
    (len : ℕ) (s : AsMem) :
    (commonAddressSpaceInitRegion c mr start len).run s =
      if memoryRegionAvailableInAddressSpace (s.setLocation mr
          (roundStart c.physmemPageSize start) (roundLen c.physmemPageSize len)) mr then
        .ok (.ok (), { s.setLocation mr
          (roundStart c.physmemPageSize start) (roundLen c.physmemPageSize len) with
          as := { s.as with regions := mr :: s.as.regions } })
      else .ok (.error .used, s.setLocation mr
        (roundStart c.physmemPageSize start) (roundLen c.physmemPageSize len)) := by
  rw [commonAddressSpaceInitRegion, if_neg hstart]
  simp only [commonMemoryRegionSetLocation, if_neg hmr, Prog.run_bind_assert hmr]
  simp only [bind_assoc, Prog.run_bind_update, pure_bind, Prog.run_bind_gets, id,
    AsMem.setLocation]
  split
  · simp only [if_true, *]
    rfl
  · simp only [*]
    rfl

/-- The same on the i686. -/
lemma initRegion_run (c : Cpu ε σ) (hc : c.physmemPageSize = 4096) {mr start : ℕ} (hmr : mr ≠ 0)
    (hstart : start ≠ 0) (hstart' : start < 2 ^ 32) (len : ℕ) (s : AsMem) :
    (commonAddressSpaceInitRegion c mr start len).run s =
      if memoryRegionAvailableInAddressSpace
          (s.setLocation mr (regionStart start) (regionLength len)) mr then
        .ok (.ok (), { s.setLocation mr (regionStart start) (regionLength len) with
          as := { s.as with regions := mr :: s.as.regions } })
      else .ok (.error .used, s.setLocation mr (regionStart start) (regionLength len)) := by
  rw [initRegion_run_round c hmr hstart, hc, roundStart_eq hstart', roundLen_eq]

/-- An accepted region has the rounded location. -/
lemma initRegion_accepted (c : Cpu ε σ) (hc : c.physmemPageSize = 4096) {mr start len : ℕ}
    {s s' : AsMem} (hstart : start < 2 ^ 32)
    (h : (commonAddressSpaceInitRegion c mr start len).run s = .ok (.ok (), s')) :
    s'.as.pd = s.as.pd ∧ s'.region mr = { s.region mr with
      start := regionStart start, length := regionLength len } := by
  have hne : start ≠ 0 := by
    rintro rfl
    rw [commonAddressSpaceInitRegion, if_pos rfl, Prog.run_pure] at h
    exact absurd (Prod.mk.inj (Except.ok.inj h)).1 (by simp)
  have hmr : mr ≠ 0 := by
    intro h0
    rw [commonAddressSpaceInitRegion, if_neg hne] at h
    exact (Prog.assert_of_run h).1 h0
  rw [initRegion_run c hc hmr hne hstart] at h
  split_ifs at h
  · rw [← (Prod.mk.inj (Except.ok.inj h)).2]
    refine ⟨rfl, ?_⟩
    show Function.update s.region mr _ mr = _
    rw [Function.update_self]
  · exact absurd (Prod.mk.inj (Except.ok.inj h)).1 (by simp)

/-! ## Runs -/

/-- A request for a region whose end, rounded, is below the end of the address space. -/
def BelowEnd (start len : ℕ) : Prop := regionStart start + regionLength len < 2 ^ 32

instance (start len : ℕ) : Decidable (BelowEnd start len) := inferInstanceAs (Decidable (_ < _))

/-- An address space without regions. -/
def NoRegions (s : AsMem) : Prop := s.as.regions = []

/-- One request, with a region structure that is not on the list. -/
inductive RegionStep (c : Cpu ε σ) (allowed : ℕ → ℕ → Prop) : AsMem → AsMem → Prop
  | init {s s' : AsMem} {mr start len : ℕ} {res : Except AddressSpaceErr Unit} :
      mr ≠ 0 → mr ∉ s.as.regions → start ≠ 0 → start < 2 ^ 32 → len < 2 ^ 32 →
      allowed start len → (commonAddressSpaceInitRegion c mr start len).run s = .ok (res, s') →
      RegionStep c allowed s s'

/-- The address spaces that requests lead to. -/
def RegionsReachable (c : Cpu ε σ) (allowed : ℕ → ℕ → Prop) : AsMem → Prop :=
  Reachable NoRegions (RegionStep c allowed)

/-- No two regions share an address. -/
def RegionsDisjoint (s : AsMem) : Prop :=
  ∀ m ∈ s.as.regions, ∀ m' ∈ s.as.regions, m ≠ m' →
    Disjoint (s.region m).addresses (s.region m').addresses

/-- **The invariant**: regions are disjoint because they lie one beside the other. -/
structure OverlapFree (s : AsMem) : Prop where
  inSpace : ∀ m ∈ s.as.regions, (s.region m).InSpace
  disjoint : RegionsDisjoint s

section Runs

variable {c : Cpu ε σ} {s s' : AsMem} {mr start len : ℕ}

lemma OverlapFree.init (h : NoRegions s) : OverlapFree s := by
  rw [NoRegions] at h
  exact ⟨by simp [h], by simp [RegionsDisjoint, h]⟩

/-- Setting the location of a region that is not on the list. -/
lemma setLocation_region (hfresh : mr ∉ s.as.regions) (start len : ℕ) :
    ∀ m ∈ s.as.regions, (s.setLocation mr start len).region m = s.region m := by
  intro m hm
  refine Function.update_of_ne ?_ _ _
  rintro rfl
  exact hfresh hm

@[simp] lemma setLocation_self (s : AsMem) (mr start len : ℕ) :
    (s.setLocation mr start len).region mr = { s.region mr with start := start, length := len } :=
  Function.update_self ..

lemma setLocation_inSpace (hend : BelowEnd start len) :
    ((s.setLocation mr (regionStart start) (regionLength len)).region mr).InSpace := by
  rw [setLocation_self]
  exact hend

lemma OverlapFree.setLocation (h : OverlapFree s) (hfresh : mr ∉ s.as.regions) (start len : ℕ) :
    OverlapFree (s.setLocation mr start len) := by
  have hsame := setLocation_region hfresh start len
  refine ⟨fun m hm => ?_, fun m hm m' hm' hne => ?_⟩
  · rw [hsame m hm]
    exact h.inSpace m hm
  · rw [hsame m hm, hsame m' hm']
    exact h.disjoint m hm m' hm' hne

/-- The overlap test finds every region that shares an address with the requested one. -/
lemma OverlapFree.disjoint_of_available (h : OverlapFree s) (hmr : (s.region mr).InSpace)
    (havail : memoryRegionAvailableInAddressSpace s mr = true) :
    ∀ m ∈ s.as.regions, Disjoint (s.region mr).addresses (s.region m).addresses := by
  intro m hm
  have hcompare := availableIn_iff.mp havail m hm
  rw [MemoryRegion.compareToRegion_ne_zero hmr (h.inSpace m hm)] at hcompare
  exact MemoryRegion.disjoint_of_beside hmr (h.inSpace m hm) hcompare

/-- Adding a region that the overlap test let through. -/
lemma OverlapFree.insert (h : OverlapFree s) (hmr : (s.region mr).InSpace)
    (havail : memoryRegionAvailableInAddressSpace s mr = true) :
    OverlapFree { s with as := { s.as with regions := mr :: s.as.regions } } := by
  have hdisj := h.disjoint_of_available hmr havail
  refine ⟨List.forall_mem_cons.mpr ⟨hmr, h.inSpace⟩, ?_⟩
  intro m hm m' hm' hne
  rcases List.mem_cons.mp hm with rfl | hold
  · rcases List.mem_cons.mp hm' with rfl | hold'
    · exact absurd rfl hne
    · exact hdisj m' hold'
  · rcases List.mem_cons.mp hm' with rfl | hold'
    · exact (hdisj m hold).symm
    · exact h.disjoint m hold m' hold' hne

lemma OverlapFree.step (hc : c.physmemPageSize = 4096) (h : OverlapFree s)
    (hs : RegionStep c BelowEnd s s') : OverlapFree s' := by
  obtain ⟨hmr, hfresh, hstart, hstart', -, hend, hrun⟩ := hs
  rename_i mr start len res
  rw [initRegion_run c hc hmr hstart hstart'] at hrun
  have hset := h.setLocation hfresh (regionStart start) (regionLength len)
  split_ifs at hrun with havail
  · obtain ⟨-, rfl⟩ := Prod.mk.inj (Except.ok.inj hrun)
    exact hset.insert (setLocation_inSpace hend) havail
  · obtain ⟨-, rfl⟩ := Prod.mk.inj (Except.ok.inj hrun)
    exact hset

lemma RegionsReachable.overlapFree (hc : c.physmemPageSize = 4096)
    (hr : RegionsReachable c BelowEnd s) : OverlapFree s :=
  Reachable.invariant (I := OverlapFree) (fun _ h => OverlapFree.init h)
    (fun _ _ h hs => h.step hc hs) hr

/-- **Regions do not overlap** as long as every request stays below the end of the address space,
and such a request is refused when the region it asks for shares an address with one that is
there. -/
theorem regions_disjoint (hc : c.physmemPageSize = 4096) (hr : RegionsReachable c BelowEnd s) :
    RegionsDisjoint s ∧
    ∀ mr start len, mr ≠ 0 → mr ∉ s.as.regions → start ≠ 0 → start < 2 ^ 32 → len < 2 ^ 32 →
      BelowEnd start len →
      (∃ m ∈ s.as.regions, ¬ Disjoint (s.region m).addresses
        (MemoryRegion.addresses ⟨regionStart start, regionLength len, false, false⟩)) →
      ∃ s', (commonAddressSpaceInitRegion c mr start len).run s = .ok (.error .used, s') ∧
        s'.as.regions = s.as.regions := by
  have h := RegionsReachable.overlapFree hc hr
  refine ⟨h.disjoint, ?_⟩
  rintro mr start len hmr hfresh hstart hstart' - hend ⟨m, hm, hoverlap⟩
  rw [initRegion_run c hc hmr hstart hstart']
  have hset := h.setLocation hfresh (regionStart start) (regionLength len)
  split_ifs with havail
  · exfalso
    have hdisj := hset.disjoint_of_available (setLocation_inSpace hend) havail m hm
    rw [setLocation_region hfresh _ _ m hm, setLocation_self] at hdisj
    exact hoverlap hdisj.symm
  · exact ⟨_, rfl, rfl⟩

end Runs

/-! ## Requests at both ends of the address space -/

/-- An address space without regions, and region structures that hold nothing yet. -/
def emptySpace : AsMem where
  as := { pd := 0, regions := [] }
  region := fun _ => ⟨0, 0, false, false⟩

/-- The memory after a request. -/
def requested (mr start len : ℕ) (s : AsMem) : AsMem :=
  Prog.after (commonAddressSpaceInitRegion pageByPage mr start len) s

lemma requested_reachable {allowed : ℕ → ℕ → Prop} {s : AsMem} (mr start len : ℕ)
    (hr : RegionsReachable pageByPage allowed s) (hmr : mr ≠ 0) (hfresh : mr ∉ s.as.regions)
    (hstart : start ≠ 0 ∧ start < 2 ^ 32) (hlen : len < 2 ^ 32) (hallowed : allowed start len)
    (hrun : ((commonAddressSpaceInitRegion pageByPage mr start len).run s).toOption.map Prod.fst
      = some (.ok ())) :
    RegionsReachable pageByPage allowed (requested mr start len s) :=
  hr.tail (.init hmr hfresh hstart.1 hstart.2 hlen hallowed (Prog.run_after hrun))

/-- Two regions next to each other are both accepted. -/
theorem regions_disjoint_two : ∃ s, RegionsReachable pageByPage BelowEnd s ∧
    s.as.regions = [2, 1] ∧ (s.region 1).length = 4096 ∧ RegionsDisjoint s := by
  have h₀ : RegionsReachable pageByPage BelowEnd emptySpace := .base rfl
  have h₁ := requested_reachable 1 4096 100 h₀ (by decide) (by decide) (by decide) (by decide)
    (by decide +kernel) (by decide +kernel)
  have h₂ := requested_reachable 2 8192 1 h₁ (by decide) (by decide +kernel) (by decide)
    (by decide) (by decide +kernel) (by decide +kernel)
  exact ⟨_, h₂, by decide +kernel, by decide +kernel, (regions_disjoint rfl h₂).1⟩

/-- A region that ends at the end of the address space compares as if it ended at 0, so the same
range is given out twice. -/
theorem regions_overlap :
    ¬ ∀ s, RegionsReachable pageByPage (fun _ _ => True) s → RegionsDisjoint s := by
  intro hall
  have h₀ : RegionsReachable pageByPage (fun _ _ => True) emptySpace := .base rfl
  have h₁ := requested_reachable 1 0xFFFFF000 4096 h₀ (by decide) (by decide) (by decide)
    (by decide) trivial (by decide +kernel)
  have h₂ := requested_reachable 2 0xFFFFF000 4096 h₁ (by decide) (by decide +kernel) (by decide)
    (by decide) trivial (by decide +kernel)
  have hdisj := hall _ h₂ 1 (by decide +kernel) 2 (by decide +kernel) (by decide)
  rw [Set.disjoint_left] at hdisj
  exact hdisj (a := 0xFFFFF000) ⟨0, by decide +kernel, by decide +kernel⟩
    ⟨0, by decide +kernel, by decide +kernel⟩

/-! ## The documented rounding -/

/-- The location of a region is `start` rounded down to pages and `len` rounded up. -/
def RoundedAsDocumented (mr : MemoryRegion) (start len : ℕ) : Prop :=
  mr.start = start / 4096 * 4096 ∧ IsLeast { n | 4096 ∣ n ∧ len ≤ n } mr.length

lemma regionStart_eq_iff {start : ℕ} (h : start < 2 ^ 32) :
    regionStart start = start / 4096 * 4096 ↔ start < 2 ^ 31 ∨ 4096 ∣ start := by
  unfold regionStart
  split_ifs with hlow
  · exact ⟨fun _ => Or.inl hlow, fun _ => rfl⟩
  · rw [Nat.dvd_iff_mod_eq_zero]
    omega

/-- The smallest multiple of the page size is no 32-bit number for the last lengths. -/
lemma isLeast_regionLength_iff {len : ℕ} (h : len < 2 ^ 32) :
    IsLeast { n | 4096 ∣ n ∧ len ≤ n } (regionLength len) ↔ len + 4096 ≤ 2 ^ 32 := by
  have hup : len ≤ (len + 4095) / 4096 * 4096 := by omega
  constructor
  · rintro ⟨⟨-, hle⟩, -⟩
    unfold regionLength at hle
    omega
  · intro hlen
    have hlt : regionLength len = (len + 4095) / 4096 * 4096 := Nat.mod_eq_of_lt (by omega)
    rw [hlt]
    refine ⟨⟨Nat.dvd_mul_left _ _, hup⟩, ?_⟩
    rintro n ⟨⟨k, rfl⟩, hn⟩
    omega

/-- **The rounding is the documented one** exactly for starts in the lower half of the address
space, or at a page boundary, and lengths that can be rounded up. -/
theorem region_rounding_iff (c : Cpu ε σ) (hc : c.physmemPageSize = 4096) {mr start len : ℕ}
    (hmr : mr ≠ 0) (hstart : start ≠ 0) (hstart' : start < 2 ^ 32) (hlen : len < 2 ^ 32)
    (s : AsMem) :
    ∃ res s', (commonAddressSpaceInitRegion c mr start len).run s = .ok (res, s') ∧
      (RoundedAsDocumented (s'.region mr) start len ↔
        (start < 2 ^ 31 ∨ 4096 ∣ start) ∧ len + 4096 ≤ 2 ^ 32) := by
  have hrounded : RoundedAsDocumented
      ((s.setLocation mr (regionStart start) (regionLength len)).region mr) start len ↔
        (start < 2 ^ 31 ∨ 4096 ∣ start) ∧ len + 4096 ≤ 2 ^ 32 := by
    rw [setLocation_self, RoundedAsDocumented, regionStart_eq_iff hstart',
      isLeast_regionLength_iff hlen]
  rw [initRegion_run c hc hmr hstart hstart']
  split_ifs
  · exact ⟨_, _, rfl, hrounded⟩
  · exact ⟨_, _, rfl, hrounded⟩

/-- A request in the lower half. -/
theorem region_rounding_low : ∃ res s',
    (commonAddressSpaceInitRegion pageByPage 1 4097 4097).run emptySpace = .ok (res, s') ∧
      (RoundedAsDocumented (s'.region 1) 4097 4097 ↔
        (4097 < 2 ^ 31 ∨ 4096 ∣ 4097) ∧ 4097 + 4096 ≤ 2 ^ 32) :=
  region_rounding_iff pageByPage rfl (by decide) (by decide) (by decide) (by decide) emptySpace

/-- In the upper half of the address space the start is rounded up. -/
theorem region_rounded_up :
    ¬ ∀ (s s' : AsMem) (mr start len : ℕ) (res : Except AddressSpaceErr Unit), mr ≠ 0 →
      start ≠ 0 → start < 2 ^ 32 → len < 2 ^ 32 →
      (commonAddressSpaceInitRegion pageByPage mr start len).run s = .ok (res, s') →
      RoundedAsDocumented (s'.region mr) start len := by
  intro hall
  have hrun : (commonAddressSpaceInitRegion pageByPage 1 0xC0000001 1).run emptySpace
      = .ok (.ok (), requested 1 0xC0000001 1 emptySpace) := Prog.run_after (by decide +kernel)
  have hstart := (hall _ _ 1 0xC0000001 1 _ (by decide) (by decide) (by decide) (by decide) hrun).1
  exact absurd hstart (by decide +kernel)

/-! ## Refused requests -/

/-- The same regions at the same places. -/
def LeftAsWas (s s' : AsMem) : Prop :=
  s'.as.regions = s.as.regions ∧ ∀ m ∈ s.as.regions,
    (s'.region m).start = (s.region m).start ∧ (s'.region m).length = (s.region m).length

/-- A request that is refused leaves the address space as it was. -/
def RefusalIsClean (c : Cpu ε σ) (mr start len : ℕ) (s : AsMem) : Prop :=
  ∀ e s', (commonAddressSpaceInitRegion c mr start len).run s = .ok (.error e, s') → LeftAsWas s s'

/-- Setting a location leaves the others alone. -/
lemma leftAsWas_setLocation_iff {s : AsMem} {mr start len : ℕ} :
    LeftAsWas s (s.setLocation mr start len) ↔ mr ∉ s.as.regions ∨
      ((s.region mr).start = start ∧ (s.region mr).length = len) := by
  constructor
  · rintro ⟨-, hkept⟩
    by_cases hmr : mr ∈ s.as.regions
    · have hloc := hkept mr hmr
      rw [setLocation_self] at hloc
      exact Or.inr ⟨hloc.1.symm, hloc.2.symm⟩
    · exact Or.inl hmr
  · rintro (hmr | ⟨hstart, hlen⟩)
    · refine ⟨rfl, fun m hm => ?_⟩
      rw [setLocation_region hmr start len m hm]
      exact ⟨rfl, rfl⟩
    · refine ⟨rfl, fun m _ => ?_⟩
      by_cases hm : m = mr
      · rw [hm, setLocation_self]
        exact ⟨hstart.symm, hlen.symm⟩
      · have hsame : (s.setLocation mr start len).region m = s.region m :=
          Function.update_of_ne hm _ _
        rw [hsame]
        exact ⟨rfl, rfl⟩

/-- **A refusal is clean** exactly when nothing was stored, the region is not on the list, it keeps
its place, or the request is not refused. -/
theorem refused_request_iff (c : Cpu ε σ) (mr start len : ℕ) (s : AsMem) :
    RefusalIsClean c mr start len s ↔
      mr = 0 ∨ start = 0 ∨ mr ∉ s.as.regions ∨
      ((s.region mr).start = roundStart c.physmemPageSize start ∧
        (s.region mr).length = roundLen c.physmemPageSize len) ∨
      memoryRegionAvailableInAddressSpace (s.setLocation mr
        (roundStart c.physmemPageSize start) (roundLen c.physmemPageSize len)) mr = true := by
  by_cases hstart : start = 0
  · refine ⟨fun _ => Or.inr (Or.inl hstart), fun _ e s' hrun => ?_⟩
    rw [commonAddressSpaceInitRegion, if_pos hstart, Prog.run_pure] at hrun
    rcases Prod.mk.inj (Except.ok.inj hrun) with ⟨-, rfl⟩
    exact ⟨rfl, fun _ _ => ⟨rfl, rfl⟩⟩
  by_cases hmr : mr = 0
  · refine ⟨fun _ => Or.inl hmr, fun _ e s' hrun => ?_⟩
    rw [commonAddressSpaceInitRegion, if_neg hstart, Prog.run_bind_iff] at hrun
    rcases hrun with ⟨_, _, hassert, -⟩
    rw [Prog.assert, if_neg (not_not.mpr hmr), Prog.run_fault] at hassert
    exact absurd hassert (by simp)
  have hrun := initRegion_run_round c hmr hstart len s
  rw [RefusalIsClean, hrun]
  split_ifs with havail
  · refine ⟨fun _ => Or.inr (Or.inr (Or.inr (Or.inr havail))), fun _ e s' h => ?_⟩
    exact absurd (Prod.mk.inj (Except.ok.inj h)).1 (by simp)
  · have hclean : LeftAsWas s (s.setLocation mr (roundStart c.physmemPageSize start)
        (roundLen c.physmemPageSize len)) ↔ _ := leftAsWas_setLocation_iff
    constructor
    · intro h
      have hleft := hclean.mp (h .used _ rfl)
      tauto
    · intro h e s' heq
      rcases Prod.mk.inj (Except.ok.inj heq) with ⟨-, rfl⟩
      refine hclean.mpr ?_
      tauto

/-- A region that is asked to move collides with itself, is refused, and has moved. -/
theorem refused_request_moves :
    ¬ ∀ (mr start len : ℕ) (s : AsMem), RefusalIsClean pageByPage mr start len s := by
  intro hall
  let s : AsMem := ⟨⟨0, [1]⟩, fun _ => ⟨0x1000, 0x1000, false, false⟩⟩
  have hrun : (commonAddressSpaceInitRegion pageByPage 1 0x10000 0x1000).run s
      = .ok (.error .used, requested 1 0x10000 0x1000 s) := Prog.run_after (by decide +kernel)
  have hstart := ((hall 1 0x10000 0x1000 s _ _ hrun).2 1 (by decide)).1
  exact absurd hstart (by decide +kernel)

end Akaris
