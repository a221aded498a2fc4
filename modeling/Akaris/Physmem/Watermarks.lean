import Akaris.Physmem.Conservation

/-!
# The feeder's watermarks

One feeder in front of a source, used on its own.  All that matters for its watermarks is three
numbers: how many pages the source has, how many the feeder has, and how many the feeder was ever
given.  `Levels` is that abstraction, with `Levels.alloc` and `Levels.free` saying what a feeder is
meant to do to it: keep `pages_to_keep` pages in stock, but never draw the source below its reserve
to do so, and let the source recover first when pages come back.

`levels_alloc` and `levels_free` say the code does exactly that, and the watermarks are an invariant
of the abstraction, `Levels.Inv`.  The subtle part of it is `total`: the pages the feeder was ever
given are those the source is short of, because a source that has once fallen to its reserve never
climbs above it again.
-/

namespace Akaris

/-! ## The abstraction -/

/-- Free pages of the source, free pages of the feeder, and the feeder's `total_pages`. -/
structure Levels where
  source : ℕ
  feeder : ℕ
  total : ℕ
  deriving DecidableEq, Repr

namespace Levels

variable (keep reserve : ℕ)

/-- Stock up to `keep + 1` pages from what the source has above its reserve. -/
def refill (l : Levels) : Levels :=
  let n := if l.feeder < keep + 1 then min (keep - l.feeder + 1) (l.source - reserve) else 0
  { source := l.source - n, feeder := l.feeder + n, total := l.total + n }

/-- Refill, then hand out a page of the feeder, or else one of the source; `none` when both are
empty. -/
def alloc (l : Levels) : Option Levels :=
  let l := l.refill keep reserve
  if 0 < l.feeder then some { l with feeder := l.feeder - 1 }
  else if 0 < l.source then some { l with source := l.source - 1 }
  else none

/-- Take a page back: the source recovers to its reserve first. -/
def free (l : Levels) : Levels :=
  if l.source < reserve then { l with source := l.source + 1 }
  else { l with feeder := l.feeder + 1 }

/-- The watermarks of a feeder over a source that started with `n` pages.  `total` counts what the
source is short of, down to its reserve. -/
structure Inv (n : ℕ) (l : Levels) : Prop where
  starved : l.source < reserve → l.feeder = 0
  total : l.total = n - max l.source reserve
  bound : l.source + l.feeder ≤ n

variable {keep reserve} {n : ℕ} {l l' : Levels}

lemma Inv.feeder_le_total (h : Inv reserve n l) : l.feeder ≤ l.total := by
  have h1 := h.starved
  have h2 := h.total
  have h3 := h.bound
  omega

lemma Inv.total_le (h : Inv reserve n l) : l.total ≤ n := by
  have h2 := h.total
  omega

lemma Inv.init : Inv reserve n { source := n, feeder := 0, total := 0 } := by
  constructor <;> simp

lemma Inv.refill (keep : ℕ) (h : Inv reserve n l) : Inv reserve n (l.refill keep reserve) := by
  have h1 := h.starved
  have h2 := h.total
  have h3 := h.bound
  refine ⟨?_, ?_, ?_⟩ <;> simp only [Levels.refill] <;> split_ifs <;> omega

/-- A refill stops at the reserve. -/
lemma refill_source (keep reserve : ℕ) (l : Levels) :
    (l.refill keep reserve).source = l.source ∨ reserve ≤ (l.refill keep reserve).source := by
  simp only [Levels.refill]
  split_ifs <;> omega

lemma Inv.alloc (h : Inv reserve n l) (ha : l.alloc keep reserve = some l') :
    Inv reserve n l' := by
  have hr := h.refill keep
  have h1 := hr.starved
  have h2 := hr.total
  have h3 := hr.bound
  have hstop : (l.refill keep reserve).feeder = 0 →
      (l.refill keep reserve).source ≤ reserve := by
    simp only [Levels.refill]
    split_ifs <;> omega
  simp only [Levels.alloc] at ha
  split_ifs at ha with hfeeder hsource
  · obtain rfl := Option.some.inj ha
    exact ⟨fun hlow => by have := h1 hlow; omega, h2, by simp only; omega⟩
  · obtain rfl := Option.some.inj ha
    have hle := hstop (by omega)
    exact ⟨fun _ => by simp only; omega, by simp only; omega, by simp only; omega⟩

/-- A page comes back: there was room for it. -/
lemma Inv.free (h : Inv reserve n l) (hroom : l.source + l.feeder < n) :
    Inv reserve n (l.free reserve) := by
  have h1 := h.starved
  have h2 := h.total
  refine ⟨?_, ?_, ?_⟩ <;> simp only [Levels.free] <;> split_ifs <;> simp only <;> omega

/-- An allocation that leaves the source above its reserve leaves the feeder stocked. -/
lemma alloc_stocked (ha : l.alloc keep reserve = some l') (habove : reserve < l'.source) :
    keep ≤ l'.feeder := by
  simp only [Levels.alloc] at ha
  split_ifs at ha with hfeeder hsource <;> obtain rfl := Option.some.inj ha <;>
    simp only [Levels.refill] at hfeeder habove ⊢ <;> split_ifs at hfeeder habove ⊢ <;> omega

/-- Only an allocation that finds the feeder empty after the refill draws on the reserve. -/
lemma alloc_draws (ha : l.alloc keep reserve = some l') (hlow : l'.source < reserve)
    (hless : l'.source < l.source) : (l.refill keep reserve).feeder = 0 := by
  by_contra hfeeder
  have hstop := refill_source keep reserve l
  simp only [Levels.alloc, Nat.pos_of_ne_zero hfeeder, if_true] at ha
  obtain rfl := Option.some.inj ha
  simp only at hlow hless
  omega

end Levels

/-! ## The code on the abstraction -/

/-- The levels of a source (manager 0) and a feeder over it (manager 1). -/
def levels (s : Managers) : Levels where
  source := (s.mgr 0).freePages
  feeder := (s.mgr 1).freePages
  total := (s.mgr 1).totalPages

section Refinement

variable {T : PageTable} {s : Managers} {fl : ℕ → List ℕ} {keep reserve : ℕ}

lemma levels_of_holds (h : Holds T s fl) (hcount : 1 < s.count) :
    levels s = ⟨(fl 0).length, (fl 1).length, (s.mgr 1).totalPages⟩ := by
  simp [levels, h.freePages 0 h.pos, h.freePages 1 hcount]

lemma levels_pop_feeder (x : ℕ) :
    levels (s.pop 1 x) = { levels s with feeder := (levels s).feeder - 1 } := by
  simp [levels, Managers.pop]

lemma levels_pop_source (x : ℕ) :
    levels (s.pop 0 x) = { levels s with source := (levels s).source - 1 } := by
  simp [levels, Managers.pop]

/-- The number of pages the code transfers, without the 32-bit wrap-around. -/
lemma refillCount_eq (hkeep : keep < 2 ^ 32 - 1) (fl : ℕ → List ℕ) :
    refillCount { source := 0, pagesToKeep := keep, minFreeSourcePages := reserve } fl 1
      = if (fl 1).length < keep + 1 then
          min (keep - (fl 1).length + 1) ((fl 0).length - reserve) else 0 := by
  have hwrap : wrap32 (keep + 1) = keep + 1 := wrap32_of_lt (by omega)
  simp only [refillCount, hwrap]
  split_ifs with hshort
  · have hsub : sub32 keep (fl 1).length = keep - (fl 1).length := sub32_of_le (by omega) (by omega)
    rw [hsub, wrap32_of_lt (by omega)]
  · rfl

/-- The levels after a refill, as long as `total_pages` does not overflow. -/
lemma levels_refilled {s₁ : Managers} (hkeep : keep < 2 ^ 32 - 1) (h : Holds T s fl)
    (hcount : 1 < s.count) (hcount₁ : s₁.count = s.count)
    (h₁ : Holds T s₁ (refilled fl 1
      (refillCount { source := 0, pagesToKeep := keep, minFreeSourcePages := reserve } fl 1)))
    (htotal : (s₁.mgr 1).totalPages = wrap32 ((s.mgr 1).totalPages +
      refillCount { source := 0, pagesToKeep := keep, minFreeSourcePages := reserve } fl 1))
    (hsmall : ((levels s).refill keep reserve).total < 2 ^ 32) :
    levels s₁ = (levels s).refill keep reserve := by
  have hlev := levels_of_holds h hcount
  have hlev₁ := levels_of_holds h₁ (hcount₁ ▸ hcount)
  rw [hlev] at hsmall ⊢
  rw [hlev₁, htotal]
  rw [refillCount_eq hkeep] at *
  simp only [Levels.refill] at hsmall ⊢
  set n := if (fl 1).length < keep + 1 then
    min (keep - (fl 1).length + 1) ((fl 0).length - reserve) else 0 with hn
  have hle : n ≤ (fl 0).length := by rw [hn]; split_ifs <;> omega
  rw [wrap32_of_lt hsmall]
  simp only [refilled, Function.update_self, Function.update_of_ne (zero_ne_one (α := ℕ)),
    List.length_drop, List.length_append, List.length_reverse, List.length_take, min_eq_left hle,
    Nat.add_comm n]

/-- **The code allocates as the abstraction does**, and reports `PHYSMEM_ERR_OOM` when it cannot. -/
theorem levels_alloc (hkeep : keep < 2 ^ 32 - 1) (h : Holds T s fl) (hcount : 1 < s.count)
    (hv : (s.mgr 1).v = .feeder ⟨0, keep, reserve⟩)
    (hsmall : ((levels s).refill keep reserve).total < 2 ^ 32) (d : ℕ) :
    match (levels s).alloc keep reserve with
    | some l => ∃ addr s', (physmemPageAlloc T (d + 4) 1).run s = .ok (.ok addr, s') ∧ levels s' = l
    | none => ∃ s', (physmemPageAlloc T (d + 4) 1).run s = .ok (.error .oom, s') ∧
        levels s' = (levels s).refill keep reserve := by
  obtain ⟨s₁, h₁, hcount₁, -, htotal, hrun⟩ :=
    feederPhysmemPageAlloc_run h hcount one_ne_zero hv rfl d
  have hrefill := levels_refilled hkeep h hcount hcount₁ h₁ htotal hsmall
  rw [← hcount₁] at hcount
  have hlev₁ := levels_of_holds h₁ hcount
  set fl₁ := refilled fl 1 (refillCount ⟨0, keep, reserve⟩ fl 1) with hfl₁
  simp only [Levels.alloc]
  rw [← hrefill, hlev₁, hrun]
  cases hfeeder : fl₁ 1 with
  | cons x xs =>
      have hrun' := commonPhysmemPageAlloc_cons h₁ hcount hfeeder d
      simp only [List.length_cons, Nat.succ_pos, if_true, reduceCtorEq, if_false]
      refine ⟨_, _, hrun', ?_⟩
      rw [levels_pop_feeder, hlev₁, hfeeder]
      rfl
  | nil =>
      simp only [List.length_nil, lt_irrefl, if_false, if_true]
      cases hsource : fl₁ 0 with
      | cons x xs =>
          have hrun' := commonPhysmemPageAlloc_cons h₁ h₁.pos hsource d
          simp only [List.length_cons, Nat.succ_pos, if_true]
          refine ⟨_, _, hrun', ?_⟩
          rw [levels_pop_source, hlev₁, hfeeder, hsource]
          rfl
      | nil =>
          simp only [List.length_nil, lt_irrefl, if_false]
          refine ⟨_, commonPhysmemPageAlloc_nil h₁ h₁.pos hsource (d + 2), ?_⟩
          rw [hlev₁, hfeeder, hsource]
          rfl

/-- **The code frees as the abstraction does.** -/
theorem levels_free (h : Holds T s fl) (hcount : 1 < s.count)
    (hv : (s.mgr 1).v = .feeder ⟨0, keep, reserve⟩)
    (hsmall : (levels s).source + (levels s).feeder + 1 < 2 ^ 32) (d addr : ℕ) :
    ∃ s', (physmemPageFree T (d + 4) 1 addr).run s = .ok (.ok (), s') ∧
      levels s' = (levels s).free reserve := by
  refine ⟨_, feederPhysmemPageFree_run h hcount hv rfl d addr, ?_⟩
  have hsource := h.freePages 0 h.pos
  have h0 : wrap32 ((levels s).source + 1) = (levels s).source + 1 := wrap32_of_lt (by omega)
  have h1 : wrap32 ((levels s).feeder + 1) = (levels s).feeder + 1 := wrap32_of_lt (by omega)
  simp only [levels] at h0 h1
  simp only [Levels.free, levels, Managers.push, hsource] at h0 h1 ⊢
  split_ifs <;> simp_all

end Refinement

/-! ## Whole runs -/

/-- One step of the callers when all of them go through the feeder. -/
inductive FeederStep (T : PageTable) (d : ℕ) : Pool → Pool → Prop
  | alloc {r : Pool} {addr : ℕ} {s' : Managers} :
      (physmemPageAlloc T (d + 4) 1).run r.st = .ok (.ok addr, s') →
      FeederStep T d r { st := s', out := addr :: r.out }
  | allocFails {r : Pool} {e : PhysmemError} {s' : Managers} :
      (physmemPageAlloc T (d + 4) 1).run r.st = .ok (.error e, s') →
      FeederStep T d r { r with st := s' }
  | free {r : Pool} {addr : ℕ} {res : Except PhysmemError Unit} {s' : Managers} :
      addr ∈ r.out → (physmemPageFree T (d + 4) 1 addr).run r.st = .ok (res, s') →
      FeederStep T d r { st := s', out := r.out.erase addr }

/-- A source with the given pages and one feeder just created over it. -/
def FeederInit (T : PageTable) (pages : List ℕ) (keep reserve : ℕ) (r : Pool) : Prop :=
  ∃ s, IsSource T pages s ∧ r = { st := feederPhysmemCreate s 0 keep reserve, out := [] }

/-- The states of a source that is used through that feeder only. -/
def FeederReachable (T : PageTable) (pages : List ℕ) (keep reserve d : ℕ) : Pool → Prop :=
  Reachable (FeederInit T pages keep reserve) (FeederStep T d)

/-- The watermarks together with what the run of the pool keeps. -/
structure FeederInv (T : PageTable) (pages : List ℕ) (keep reserve : ℕ) (r : Pool) : Prop where
  conserved : ∃ fl, Conserved T pages r fl
  count : r.st.count = 2
  v : (r.st.mgr 1).v = .feeder ⟨0, keep, reserve⟩
  watermarks : Levels.Inv reserve pages.length (levels r.st)

section Runs

variable {T : PageTable} {pages : List ℕ} {keep reserve d : ℕ} {r r' : Pool}

lemma FeederStep.poolStep (hcount : r.st.count = 2) (hs : FeederStep T d r r') :
    PoolStep T d r r' := by
  have h1 : 1 < r.st.count := by omega
  cases hs with
  | alloc hrun => exact .alloc h1 hrun
  | allocFails hrun => exact .allocFails h1 hrun
  | free ha hrun => exact .free h1 ha hrun

lemma FeederInv.init (hr : FeederInit T pages keep reserve r) :
    FeederInv T pages keep reserve r := by
  obtain ⟨s, hsrc, rfl⟩ := hr
  have hconserved := (Conserved.init (r := { st := s, out := [] }) hsrc rfl).create keep reserve
  refine ⟨⟨_, hconserved⟩, ?_, ?_, ?_⟩
  · simp [feederPhysmemCreate, hsrc.count]
  · simp [feederPhysmemCreate, hsrc.count]
  · have hlev : levels (feederPhysmemCreate s 0 keep reserve) = ⟨pages.length, 0, 0⟩ := by
      simp [levels, feederPhysmemCreate, hsrc.count, hsrc.freePages]
    rw [hlev]
    exact Levels.Inv.init

/-- The number of pages that are out is what the two lists lack. -/
lemma FeederInv.out_length (h : FeederInv T pages keep reserve r) :
    (levels r.st).source + (levels r.st).feeder + r.out.length = pages.length := by
  obtain ⟨fl, hc⟩ := h.conserved
  have hlen := hc.perm.length_eq
  have hlev := levels_of_holds hc.holds (by rw [h.count]; decide)
  rw [hlev]
  simp only [h.count, allFree, List.range_succ, List.range_zero, List.nil_append, List.cons_append,
    List.flatMap_cons, List.flatMap_nil, List.append_nil, List.length_append, List.length_map]
    at hlen ⊢
  omega

lemma FeederInv.small (h : FeederInv T pages keep reserve r) : pages.length < 2 ^ 32 := by
  obtain ⟨fl, hc⟩ := h.conserved
  exact hc.small

lemma FeederInv.refill_small (h : FeederInv T pages keep reserve r) :
    ((levels r.st).refill keep reserve).total < 2 ^ 32 :=
  Nat.lt_of_le_of_lt (h.watermarks.refill keep).total_le h.small

/-- What an allocation through the feeder does, in a state of a run. -/
lemma FeederInv.alloc_run (hkeep : keep < 2 ^ 32 - 1) (h : FeederInv T pages keep reserve r)
    {res : Except PhysmemError ℕ} {s' : Managers}
    (hrun : (physmemPageAlloc T (d + 4) 1).run r.st = .ok (res, s')) :
    match res with
    | .ok _ => (levels r.st).alloc keep reserve = some (levels s')
    | .error _ => levels s' = (levels r.st).refill keep reserve := by
  obtain ⟨fl, hc⟩ := h.conserved
  have hspec := levels_alloc hkeep hc.holds (by rw [h.count]; decide) h.v h.refill_small d
  cases halloc : (levels r.st).alloc keep reserve with
  | none =>
      simp only [halloc] at hspec
      obtain ⟨s₁, hrun', hlev⟩ := hspec
      obtain ⟨rfl, rfl⟩ : Except.error .oom = res ∧ s₁ = s' := by simpa [hrun'] using hrun
      exact hlev
  | some l =>
      simp only [halloc] at hspec
      obtain ⟨addr, s₁, hrun', hlev⟩ := hspec
      obtain ⟨rfl, rfl⟩ : Except.ok addr = res ∧ s₁ = s' := by simpa [hrun'] using hrun
      simp [hlev]

lemma FeederInv.step (hkeep : keep < 2 ^ 32 - 1) (h : FeederInv T pages keep reserve r)
    (hs : FeederStep T d r r') : FeederInv T pages keep reserve r' := by
  have hconserved := h.conserved
  obtain ⟨fl, hc⟩ := hconserved
  have h1 : 1 < r.st.count := by rw [h.count]; decide
  have hnext := hc.step (hs.poolStep h.count)
  cases hs with
  | alloc hrun =>
      obtain ⟨hcount, hv⟩ := physmemPageAlloc_frame hc.holds h1 hrun
      exact ⟨hnext, hcount.trans h.count, (hv 1).trans h.v,
        h.watermarks.alloc (h.alloc_run hkeep hrun)⟩
  | allocFails hrun =>
      obtain ⟨hcount, hv⟩ := physmemPageAlloc_frame hc.holds h1 hrun
      refine ⟨hnext, hcount.trans h.count, (hv 1).trans h.v, ?_⟩
      have hlev := h.alloc_run hkeep hrun
      simp only at hlev
      simp only [hlev]
      exact h.watermarks.refill keep
  | @free addr res s' ha hrun =>
      have hout := h.out_length
      have hpos := List.length_pos_of_mem ha
      have hsmall := h.small
      obtain ⟨s₁, hrun', hlev⟩ := levels_free hc.holds h1 h.v (by omega) d addr
      have hpush := feederPhysmemPageFree_run hc.holds h1 h.v rfl d addr
      obtain ⟨-, rfl⟩ : Except.ok () = res ∧ s₁ = s' := by simpa [hrun'] using hrun
      obtain rfl : s₁ = _ := by simpa [hrun'] using hpush
      refine ⟨hnext, h.count, ?_, ?_⟩
      · simpa using h.v
      · simp only [hlev]
        exact h.watermarks.free (by omega)

theorem FeederReachable.inv (hkeep : keep < 2 ^ 32 - 1)
    (hr : FeederReachable T pages keep reserve d r) : FeederInv T pages keep reserve r :=
  Reachable.invariant (I := FeederInv T pages keep reserve) (fun _ h => FeederInv.init h)
    (fun _ _ h hs => h.step hkeep hs) hr

/-- The refill loop asked for `n` pages moves what the source has above its reserve. -/
lemma FeederInv.refill_run (h : FeederInv T pages keep reserve r) (d n : ℕ) :
    ∃ s₁, (feederRefill T (pageAlloc T (d + 3)) (d + 3) 1 ⟨0, keep, reserve⟩ n none).run r.st
        = .ok ((), s₁) ∧
      (levels s₁).source = (levels r.st).source - min n ((levels r.st).source - reserve) ∧
      (levels s₁).feeder = (levels r.st).feeder + min n ((levels r.st).source - reserve) := by
  obtain ⟨fl, hc⟩ := h.conserved
  have h1 : 1 < r.st.count := by rw [h.count]; decide
  obtain ⟨s₁, hrun, h₁, hcount₁, -, -⟩ := feederRefill_run (f := ⟨0, keep, reserve⟩) rfl
    one_ne_zero d n r.st fl none hc.holds h1
  have hlev := levels_of_holds hc.holds h1
  have hlev₁ := levels_of_holds h₁ (hcount₁ ▸ h1)
  refine ⟨s₁, hrun, ?_, ?_⟩
  · rw [hlev, hlev₁]
    simp only [refilled, Function.update_of_ne (zero_ne_one (α := ℕ)), Function.update_self,
      List.length_drop]
  · rw [hlev, hlev₁]
    simp only [refilled, Function.update_self, List.length_append, List.length_reverse,
      List.length_take]
    omega

/-- What the code asks the refill loop for when the feeder is short of pages. -/
lemma refill_ask (hkeep : keep < 2 ^ 32 - 1) {n : ℕ} (hshort : n < keep + 1) :
    wrap32 (sub32 keep n + 1) = keep - n + 1 := by
  have hsub : sub32 keep n = keep - n := sub32_of_le (by omega) (by omega)
  rw [hsub, wrap32_of_lt (by omega)]

/-- An allocation draws on the reserve only after a refill that left the feeder empty. -/
lemma FeederInv.draws (hkeep : keep < 2 ^ 32 - 1) (h : FeederInv T pages keep reserve r)
    {res : Except PhysmemError ℕ} {s' : Managers}
    (hrun : (physmemPageAlloc T (d + 4) 1).run r.st = .ok (res, s'))
    (hlow : (levels s').source < reserve) (hless : (levels s').source < (levels r.st).source) :
    ((levels r.st).refill keep reserve).feeder = 0 := by
  have hlev := h.alloc_run hkeep hrun
  cases res with
  | ok addr => exact Levels.alloc_draws hlev hlow hless
  | error e =>
      -- a failing allocation only refilled, and that stops at the reserve
      have hstop := Levels.refill_source keep reserve (levels r.st)
      rw [← hlev] at hstop
      rcases hstop with hsame | habove
      · exact absurd hsame (Nat.ne_of_lt hless)
      · exact absurd hlow (Nat.not_lt.mpr habove)

/-- **Feeder watermarks.**  In every state of a run through one feeder that keeps `keep` pages and
respects a reserve of `reserve` source pages: the feeder is empty while the source is below its
reserve; the refill loop, whatever number of pages it is asked for, never takes the source below
its reserve, and an allocation that does found the feeder empty after its refill; an allocation
that leaves the source above its reserve leaves the feeder at least `keep` pages; and the feeder
never holds more pages than it was given, nor was it given more than there are. -/
theorem feeder_watermarks (hkeep : keep < 2 ^ 32 - 1)
    (hr : FeederReachable T pages keep reserve d r) :
    let source := fun s : Managers => (s.mgr 0).freePages
    let feeder := fun s : Managers => (s.mgr 1).freePages
    let refill := fun n => feederRefill T (pageAlloc T (d + 3)) (d + 3) 1 ⟨0, keep, reserve⟩ n none
    (source r.st < reserve → feeder r.st = 0) ∧
    (∀ n s', (refill n).run r.st = .ok ((), s') →
      source s' = source r.st ∨ reserve ≤ source s') ∧
    (∀ res s', (physmemPageAlloc T (d + 4) 1).run r.st = .ok (res, s') →
      source s' < reserve → source s' < source r.st →
      ∃ s₁, (refill (wrap32 (sub32 keep (feeder r.st) + 1))).run r.st = .ok ((), s₁) ∧
        feeder s₁ = 0) ∧
    (∀ addr s', (physmemPageAlloc T (d + 4) 1).run r.st = .ok (.ok addr, s') →
      reserve < source s' → keep ≤ feeder s') ∧
    feeder r.st ≤ (r.st.mgr 1).totalPages ∧ (r.st.mgr 1).totalPages ≤ pages.length := by
  intro source feeder refill
  have h := hr.inv hkeep
  refine ⟨h.watermarks.starved, ?_, ?_, ?_, h.watermarks.feeder_le_total, h.watermarks.total_le⟩
  · intro n s' hrun
    obtain ⟨s₁, hrun', hsource, -⟩ := h.refill_run d n
    obtain ⟨-, rfl⟩ : () = () ∧ s₁ = s' := by simpa [refill, hrun'] using hrun
    simp only [levels] at hsource
    simp only [source]
    omega
  · intro res s' hrun hlow hless
    have hempty := h.draws hkeep hrun hlow hless
    obtain ⟨s₁, hrun', -, hfeeder⟩ := h.refill_run d (wrap32 (sub32 keep (feeder r.st) + 1))
    refine ⟨s₁, hrun', ?_⟩
    simp only [Levels.refill] at hempty
    split_ifs at hempty with hshort
    · have hask : wrap32 (sub32 keep (feeder r.st) + 1) = keep - (levels r.st).feeder + 1 :=
        refill_ask hkeep hshort
      rw [hask] at hfeeder
      exact hfeeder.trans hempty
    · omega
  · intro addr s' hrun habove
    exact Levels.alloc_stocked (h.alloc_run hkeep hrun) habove

/-- Three pages, one kept in stock and one in reserve: after one allocation the source is down to
its reserve and the feeder holds the page it keeps. -/
theorem feeder_watermarks_three :
    ∃ r : Pool, FeederReachable i686PageTable [1, 2, 3] 1 1 0 r ∧ r.out = [8192] ∧
      levels r.st = ⟨1, 1, 2⟩ ∧ (r.st.mgr 1).freePages ≤ (r.st.mgr 1).totalPages := by
  have h₀ : FeederReachable i686PageTable [1, 2, 3] 1 1 0
      { st := feederPhysmemCreate threePages 0 1 1, out := [] } :=
    .base ⟨threePages, threePages_isSource, rfl⟩
  have h₁ := h₀.tail (.alloc rfl)
  exact ⟨_, h₁, rfl, rfl, (feeder_watermarks (by norm_num) h₁).2.2.2.2.1⟩

end Runs

end Akaris
