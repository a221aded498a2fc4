import Akaris.AddressSpace.Regions

/-!
# Looking up an address

`common_address_space_get_region` takes the first region of an unordered list that contains the
address.  Which one that is does not depend on the order because at most one does: the requests
that were accepted do not overlap, and each has its rounded range.  `RequestRun` keeps the accepted
requests next to the address space, and `AsRequested` says that the list and the region structures
are what they ask for.

* **`region_lookup`** — a lookup finds the accepted request that asked for the address, which is
  unique, and nothing when there is none; two runs that accept the same requests in any order
  answer every lookup alike.
-/

namespace Akaris

variable {ε σ : Type}

/-! ## Runs with their accepted requests -/

/-- A request: a region structure, a start and a length. -/
structure Request where
  mr : ℕ
  start : ℕ
  len : ℕ
  deriving DecidableEq, Repr

/-- The rounded range of a request contains the address. -/
def Request.Covers (q : Request) (loc : ℕ) : Prop :=
  regionStart q.start ≤ loc ∧ loc < regionStart q.start + regionLength q.len

/-- A request for a fresh region whose rounded end is below the end of the address space. -/
structure Request.Fresh (q : Request) (s : AsMem) : Prop where
  mr : q.mr ≠ 0
  notMem : q.mr ∉ s.as.regions
  start : q.start ≠ 0 ∧ q.start < 2 ^ 32
  len : q.len < 2 ^ 32
  belowEnd : BelowEnd q.start q.len

/-- An address space and the requests that were accepted, the latest first. -/
structure RequestRun where
  mem : AsMem
  accepted : List Request

/-- One request, which is accepted or refused. -/
inductive RequestStep (c : Cpu ε σ) : RequestRun → RequestRun → Prop
  | accepted {r : RequestRun} {q : Request} {mem : AsMem} : q.Fresh r.mem →
      (commonAddressSpaceInitRegion c q.mr q.start q.len).run r.mem = .ok (.ok (), mem) →
      RequestStep c r ⟨mem, q :: r.accepted⟩
  | refused {r : RequestRun} {q : Request} {mem : AsMem} {e : AddressSpaceErr} : q.Fresh r.mem →
      (commonAddressSpaceInitRegion c q.mr q.start q.len).run r.mem = .ok (.error e, mem) →
      RequestStep c r ⟨mem, r.accepted⟩

/-- The address spaces that requests lead to, with the requests accepted on the way. -/
def RequestsReachable (c : Cpu ε σ) : RequestRun → Prop :=
  Reachable (fun r => NoRegions r.mem ∧ r.accepted = []) (RequestStep c)

/-- **The invariant**: the regions are those of the accepted requests, at their rounded ranges,
without overlaps. -/
structure AsRequested (r : RequestRun) : Prop where
  free : OverlapFree r.mem
  regions : r.mem.as.regions = r.accepted.map Request.mr
  placed : ∀ q ∈ r.accepted, (r.mem.region q.mr).start = regionStart q.start ∧
    (r.mem.region q.mr).length = regionLength q.len
  distinct : (r.accepted.map Request.mr).Nodup

section Runs

variable {c : Cpu ε σ} {r r' : RequestRun} {q : Request} {mem : AsMem}

lemma AsRequested.init (h : NoRegions r.mem ∧ r.accepted = []) : AsRequested r := by
  rcases h with ⟨hnone, haccepted⟩
  refine ⟨OverlapFree.init hnone, ?_, ?_, ?_⟩
  · rw [haccepted]
    exact hnone
  · simp [haccepted]
  · simp [haccepted]

/-- The requested location is stored, whatever becomes of the request. -/
lemma AsRequested.setLocation (h : AsRequested r) (hq : q.Fresh r.mem) :
    AsRequested ⟨r.mem.setLocation q.mr (regionStart q.start) (regionLength q.len), r.accepted⟩ := by
  refine ⟨h.free.setLocation hq.notMem _ _, h.regions, ?_, h.distinct⟩
  intro q' hq'
  have hmem : q'.mr ∈ r.mem.as.regions := by
    rw [h.regions]
    exact List.mem_map_of_mem hq'
  show ((r.mem.setLocation q.mr _ _).region q'.mr).start = _ ∧ _
  rw [setLocation_region hq.notMem _ _ _ hmem]
  exact h.placed q' hq'

/-- Every request keeps the invariant. -/
lemma AsRequested.step (hc : c.physmemPageSize = 4096) (h : AsRequested r)
    (hs : RequestStep c r r') : AsRequested r' := by
  cases hs with
  | @accepted q mem hq hrun =>
      have hset := h.setLocation hq
      rw [initRegion_run c hc hq.mr hq.start.1 hq.start.2] at hrun
      split_ifs at hrun with havail
      · rcases Prod.mk.inj (Except.ok.inj hrun) with ⟨-, rfl⟩
        refine ⟨hset.free.insert (setLocation_inSpace hq.belowEnd) havail, ?_, ?_, ?_⟩
        · show q.mr :: r.mem.as.regions = _
          rw [h.regions, List.map_cons]
        · refine List.forall_mem_cons.mpr ⟨?_, hset.placed⟩
          show ((r.mem.setLocation q.mr _ _).region q.mr).start = _ ∧ _
          rw [setLocation_self]
          exact ⟨rfl, rfl⟩
        · rw [List.map_cons, List.nodup_cons, ← h.regions]
          refine ⟨hq.notMem, ?_⟩
          rw [h.regions]
          exact h.distinct
      · exact absurd (Prod.mk.inj (Except.ok.inj hrun)).1 (by simp)
  | @refused q mem e hq hrun =>
      have hset := h.setLocation hq
      rw [initRegion_run c hc hq.mr hq.start.1 hq.start.2] at hrun
      split_ifs at hrun with havail
      · exact absurd (Prod.mk.inj (Except.ok.inj hrun)).1 (by simp)
      · rcases Prod.mk.inj (Except.ok.inj hrun) with ⟨-, rfl⟩
        exact hset

lemma RequestsReachable.asRequested (hc : c.physmemPageSize = 4096)
    (hr : RequestsReachable c r) : AsRequested r :=
  Reachable.invariant (I := AsRequested) (fun _ h => AsRequested.init h)
    (fun _ _ h hs => h.step hc hs) hr

end Runs

/-! ## Lookups -/

section Lookup

variable {c : Cpu ε σ} {r r' : RequestRun} {q q' : Request} {loc : ℕ}

/-- **What the comparison with a location decides** for a region of the address space. -/
lemma compareToLocation_eq_zero {mr : MemoryRegion} (h : mr.InSpace) :
    memoryRegionCompareToLocation mr loc = 0 ↔ mr.start ≤ loc ∧ loc < mr.start + mr.length := by
  simp only [memoryRegionCompareToLocation, wrap32_of_lt h]
  split_ifs <;> simp_all

lemma findRegion_eq_some {region : ℕ → MemoryRegion} {l : List ℕ} {i : ℕ}
    (h : findRegion region loc l = some i) :
    i ∈ l ∧ memoryRegionCompareToLocation (region i) loc = 0 := by
  induction l with
  | nil => simp [findRegion] at h
  | cons j l ih =>
      rw [findRegion] at h
      split_ifs at h with hj
      · rw [Option.some.injEq] at h
        rw [← h]
        exact ⟨List.mem_cons_self, hj⟩
      · exact ⟨List.mem_cons_of_mem j (ih h).1, (ih h).2⟩

lemma findRegion_eq_none {region : ℕ → MemoryRegion} {l : List ℕ}
    (h : findRegion region loc l = none) :
    ∀ i ∈ l, memoryRegionCompareToLocation (region i) loc ≠ 0 := by
  induction l with
  | nil => simp
  | cons j l ih =>
      rw [findRegion] at h
      split_ifs at h with hj
      exact List.forall_mem_cons.mpr ⟨hj, ih h⟩

/-- A region on the list is the one of an accepted request, and has its range. -/
lemma AsRequested.compare (h : AsRequested r) (hq : q ∈ r.accepted) :
    memoryRegionCompareToLocation (r.mem.region q.mr) loc = 0 ↔ q.Covers loc := by
  have hmem : q.mr ∈ r.mem.as.regions := by
    rw [h.regions]
    exact List.mem_map_of_mem hq
  have hplaced := h.placed q hq
  rw [compareToLocation_eq_zero (h.free.inSpace _ hmem), hplaced.1, hplaced.2, Request.Covers]

/-- No address is covered twice. -/
lemma AsRequested.unique (h : AsRequested r) (hq : q ∈ r.accepted) (hq' : q' ∈ r.accepted)
    (hloc : q.Covers loc) (hloc' : q'.Covers loc) : q = q' := by
  by_contra hne
  have hmr : q.mr ≠ q'.mr := fun heq =>
    hne (List.inj_on_of_nodup_map h.distinct hq hq' heq)
  have hmem : ∀ q ∈ r.accepted, q.mr ∈ r.mem.as.regions := by
    intro q hq
    rw [h.regions]
    exact List.mem_map_of_mem hq
  have haddr : ∀ q ∈ r.accepted, q.Covers loc → loc ∈ (r.mem.region q.mr).addresses := by
    intro q hq hloc
    have hplaced := h.placed q hq
    rw [MemoryRegion.mem_addresses (h.free.inSpace _ (hmem q hq)), hplaced.1, hplaced.2]
    exact hloc
  have hdisj := h.free.disjoint _ (hmem q hq) _ (hmem q' hq') hmr
  exact Set.disjoint_left.mp hdisj (haddr q hq hloc) (haddr q' hq' hloc')

/-- What a lookup answers: the covering request's region, or nothing. -/
inductive Answer (accepted : List Request) (loc : ℕ) :
    Except AddressSpaceErr Unit × Option ℕ → Prop
  | found {q : Request} : q ∈ accepted → q.Covers loc →
      (∀ q' ∈ accepted, q'.Covers loc → q' = q) → Answer accepted loc (.ok (), some q.mr)
  | notFound : (∀ q ∈ accepted, ¬q.Covers loc) → Answer accepted loc (.error .notfound, some 0)

/-- Only one answer is right, and it does not depend on the order. -/
lemma Answer.unique {l l' : List Request} {a a' : Except AddressSpaceErr Unit × Option ℕ}
    (h : Answer l loc a) (h' : Answer l' loc a') (hl : l.Perm l') : a = a' := by
  cases h with
  | @found q hq hcovers _ =>
      cases h' with
      | @found q' _ _ hunique => rw [hunique q (hl.mem_iff.mp hq) hcovers]
      | notFound hnone => exact absurd hcovers (hnone q (hl.mem_iff.mp hq))
  | notFound hnone =>
      cases h' with
      | @found q' hq' hcovers' _ => exact absurd hcovers' (hnone q' (hl.mem_iff.mpr hq'))
      | notFound _ => rfl

/-- **A lookup** gives the right answer and changes nothing. -/
lemma AsRequested.getRegion_run (h : AsRequested r) (as mr : ℕ) (has : as ≠ 0)
    (hmr : mr ≠ 0) (loc : ℕ) : ∃ a, Answer r.accepted loc a ∧
      (commonAddressSpaceGetRegion as mr loc : AsProg ε _).run r.mem = .ok (a, r.mem) := by
  rw [commonAddressSpaceGetRegion, if_neg hmr, if_neg has, Prog.run_bind_gets]
  cases hfind : findRegion r.mem.region loc r.mem.as.regions with
  | some i =>
      rcases findRegion_eq_some hfind with ⟨hi, hcompare⟩
      rw [h.regions] at hi
      rcases List.mem_map.mp hi with ⟨q, hq, rfl⟩
      have hcovers := (h.compare hq).mp hcompare
      exact ⟨_, .found hq hcovers fun q' hq' hloc' => h.unique hq' hq hloc' hcovers, rfl⟩
  | none =>
      refine ⟨_, .notFound fun q hq hcovers => ?_, rfl⟩
      refine findRegion_eq_none hfind q.mr ?_ ((h.compare hq).mpr hcovers)
      rw [h.regions]
      exact List.mem_map_of_mem hq

/-- **Lookup is exact and does not depend on the order.**  In every run of requests for fresh
regions that end below the end of the address space, a lookup answers with the region of the one
accepted request that covers the address, or that there is none; and when another run has accepted
the same requests in another order, it gives the same answers. -/
theorem region_lookup (hc : c.physmemPageSize = 4096) (hr : RequestsReachable c r) (as mr : ℕ)
    (has : as ≠ 0) (hmr : mr ≠ 0) (loc : ℕ) :
    ∃ a, Answer r.accepted loc a ∧
      (commonAddressSpaceGetRegion as mr loc : AsProg ε _).run r.mem = .ok (a, r.mem) ∧
      ∀ r', RequestsReachable c r' → r'.accepted.Perm r.accepted →
        (commonAddressSpaceGetRegion as mr loc : AsProg ε _).run r'.mem = .ok (a, r'.mem) := by
  rcases (hr.asRequested hc).getRegion_run as mr has hmr loc with ⟨a, ha, hrun⟩
  refine ⟨a, ha, hrun, fun r' hr' hperm => ?_⟩
  rcases (hr'.asRequested hc).getRegion_run as mr has hmr loc with ⟨a', ha', hrun'⟩
  rw [hrun', ha'.unique ha hperm]

/-- The run after one more request, which is accepted. -/
def RequestRun.accept (c : Cpu ε σ) (r : RequestRun) (q : Request) : RequestRun :=
  ⟨Prog.after (commonAddressSpaceInitRegion c q.mr q.start q.len) r.mem, q :: r.accepted⟩

lemma RequestsReachable.accept {q : Request} (hr : RequestsReachable c r) (hfresh : q.Fresh r.mem)
    (hok : ((commonAddressSpaceInitRegion c q.mr q.start q.len).run r.mem).toOption.map Prod.fst
      = some (.ok ())) : RequestsReachable c (r.accept c q) :=
  hr.tail (.accepted hfresh (Prog.run_after hok))

/-- Two requests, one after the other. -/
def twoRequests (q q' : Request) : RequestRun :=
  (RequestRun.accept pageByPage ⟨emptySpace, []⟩ q).accept pageByPage q'

lemma twoRequests_reachable :
    RequestsReachable pageByPage (twoRequests ⟨1, 4096, 100⟩ ⟨2, 12288, 4096⟩) ∧
      RequestsReachable pageByPage (twoRequests ⟨2, 12288, 4096⟩ ⟨1, 4096, 100⟩) := by
  have h₀ : RequestsReachable pageByPage ⟨emptySpace, []⟩ := .base ⟨rfl, rfl⟩
  have h₁ : RequestsReachable pageByPage (RequestRun.accept pageByPage ⟨emptySpace, []⟩
      ⟨1, 4096, 100⟩) :=
    h₀.accept ⟨by decide, by decide, by decide, by decide, by decide +kernel⟩ (by decide +kernel)
  have h₂ : RequestsReachable pageByPage (RequestRun.accept pageByPage ⟨emptySpace, []⟩
      ⟨2, 12288, 4096⟩) :=
    h₀.accept ⟨by decide, by decide, by decide, by decide, by decide +kernel⟩ (by decide +kernel)
  constructor
  · exact h₁.accept ⟨by decide, by decide +kernel, by decide, by decide, by decide +kernel⟩
      (by decide +kernel)
  · exact h₂.accept ⟨by decide, by decide +kernel, by decide, by decide, by decide +kernel⟩
      (by decide +kernel)

/-- Two regions, requested in both orders: an address of the first is found in both. -/
theorem region_lookup_two : ∃ r r' : RequestRun,
    r.accepted = [⟨2, 12288, 4096⟩, ⟨1, 4096, 100⟩] ∧
    r'.accepted = [⟨1, 4096, 100⟩, ⟨2, 12288, 4096⟩] ∧
    (commonAddressSpaceGetRegion 1 1 5000 : AsProg Empty _).run r.mem
      = .ok ((.ok (), some 1), r.mem) ∧
    (commonAddressSpaceGetRegion 1 1 5000 : AsProg Empty _).run r'.mem
      = .ok ((.ok (), some 1), r'.mem) := by
  rcases twoRequests_reachable with ⟨hr, hr'⟩
  rcases region_lookup rfl hr 1 1 (by decide) (by decide) 5000 with ⟨a, ha, hrun, hother⟩
  have hfound : Answer [⟨2, 12288, 4096⟩, ⟨1, 4096, 100⟩] 5000 (.ok (), some 1) := by
    refine .found (q := ⟨1, 4096, 100⟩) (by decide) ⟨by decide, by decide⟩ fun q hq hcovers => ?_
    rcases List.mem_pair.mp hq with rfl | rfl
    · exact absurd hcovers.1 (by decide)
    · rfl
  obtain rfl := ha.unique hfound (List.Perm.refl _)
  exact ⟨_, _, rfl, rfl, hrun, hother _ hr' (List.Perm.swap _ _ _)⟩

end Lookup

end Akaris
