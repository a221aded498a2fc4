import Akaris.Physmem.Watermarks

/-!
# A feeder is invisible to its client

Two allocators are asked the same things: a feeder over a source that nobody else uses, and a plain
physmem that starts with as many free pages as that source.  They hand out different pages, so a
free names one outstanding page of each.  `TwinStep` is that paired system.

The simulation relation `TwinInv` says that as many pages are out on either side; the free pages of
the plain allocator are then those of the source and the feeder together, wherever the refills have
moved them.  **`feeder_invisible`** reads the answers off it.  Nothing is assumed of the two
settings: with `pages_to_keep` at its largest value the test `pages_to_keep + 1` wraps to 0, the
feeder never stocks up, and the answers are the same.
-/

namespace Akaris

open BsdList

/-- A feeder over a source, and a plain physmem. -/
structure Twins where
  fed : Pool
  plain : Pool

/-- The pool after an allocation: a page that was handed out is out with a caller. -/
def Pool.answered (r : Pool) (s : Managers) : Except PhysmemError ℕ → Pool
  | .ok addr => { st := s, out := addr :: r.out }
  | .error _ => { st := s, out := r.out }

/-- The `physmem_error_t` that an allocation returns, without the page. -/
def answer (res : Except PhysmemError ℕ) : Except PhysmemError Unit := res.map fun _ => ()

/-- A source with a fresh feeder, next to a plain physmem with as many free pages. -/
def TwinInit (T T' : PageTable) (pages pages' : List ℕ) (keep reserve : ℕ) (t : Twins) : Prop :=
  FeederInit T pages keep reserve t.fed ∧ IsSource T' pages' t.plain.st ∧ t.plain.out = [] ∧
    pages.length = pages'.length

/-- One call, made to the feeder and to the plain physmem: allocate, or free an outstanding page. -/
inductive TwinStep (T T' : PageTable) (d : ℕ) : Twins → Twins → Prop
  | alloc {t : Twins} {res res' : Except PhysmemError ℕ} {s s' : Managers} :
      (physmemPageAlloc T (d + 4) 1).run t.fed.st = .ok (res, s) →
      (physmemPageAlloc T' (d + 4) 0).run t.plain.st = .ok (res', s') →
      TwinStep T T' d t { fed := t.fed.answered s res, plain := t.plain.answered s' res' }
  | free {t : Twins} {addr addr' : ℕ} {res res' : Except PhysmemError Unit} {s s' : Managers} :
      addr ∈ t.fed.out → addr' ∈ t.plain.out →
      (physmemPageFree T (d + 4) 1 addr).run t.fed.st = .ok (res, s) →
      (physmemPageFree T' (d + 4) 0 addr').run t.plain.st = .ok (res', s') →
      TwinStep T T' d t
        { fed := { st := s, out := t.fed.out.erase addr }
          plain := { st := s', out := t.plain.out.erase addr' } }

/-- What the two allocators can be after any sequence of calls. -/
def TwinReachable (T T' : PageTable) (pages pages' : List ℕ) (keep reserve d : ℕ) :
    Twins → Prop :=
  Reachable (TwinInit T T' pages pages' keep reserve) (TwinStep T T' d)

/-! ## One allocation -/

section Alloc

variable {T : PageTable} {s : Managers} {fl : ℕ → List ℕ} {m : ℕ} {f : FeederPhysmem}

/-- The refill loop does not start on a source that is down to its reserve. -/
lemma feederRefill_low {call : Vfuncs → ℕ → PhysmemProg (Except PhysmemError ℕ)}
    (hlow : (s.mgr f.source).freePages ≤ f.minFreeSourcePages) (d n : ℕ) :
    (feederRefill T call d m f n none).run s = .ok ((), s) := by
  cases n with
  | zero => rfl
  | succ n =>
      simp only [feederRefill, getMgr, Prog.run_bind_gets, hlow, if_true]
      rfl

/-- **With both lists empty** a feeder allocation reports `PHYSMEM_ERR_OOM` and changes nothing. -/
lemma feederAlloc_empty (h : Holds T s fl) (hm : m < s.count) (hf : (s.mgr m).v = .feeder f)
    (hsrc : f.source = 0) (hempty : fl m = []) (hempty0 : fl 0 = []) (d : ℕ) :
    (physmemPageAlloc T (d + 4) m).run s = .ok (.error .oom, s) := by
  have hzero : (s.mgr m).freePages = 0 := by rw [h.freePages m hm, hempty]; rfl
  have hzero0 : (s.mgr 0).freePages = 0 := by rw [h.freePages 0 h.pos, hempty0]; rfl
  have hlow : (s.mgr f.source).freePages ≤ f.minFreeSourcePages := by
    rw [hsrc, hzero0]
    exact Nat.zero_le _
  have htail : (pageAlloc T (d + 3) .common f.source).run s = .ok (.error .oom, s) := by
    rw [hsrc]
    exact commonPhysmemPageAlloc_nil h h.pos hempty0 (d + 2)
  have hroot : (s.mgr f.source).v = .common := by rw [hsrc]; exact h.root
  simp only [physmemPageAlloc, getMgr, Prog.run_bind_gets, hf, pageAlloc, feederPhysmemPageAlloc]
  rw [Prog.run_bind_ok (asFeeder_run hf)]
  simp only [Prog.run_bind_gets]
  split_ifs
  · rw [Prog.run_bind_ok (feederRefill_low hlow (d + 3) _)]
    simp only [Prog.run_bind_gets, hzero, lt_irrefl, if_false, hroot]
    exact htail
  · simp only [Prog.run_bind_gets, hzero, lt_irrefl, if_false, hroot]
    exact htail

/-- **A feeder allocation fails when both lists are empty, and only then.** -/
lemma feederAlloc_answer (h : Holds T s fl) (hm : m < s.count) (hm0 : m ≠ 0)
    (hf : (s.mgr m).v = .feeder f) (hsrc : f.source = 0) (d : ℕ) :
    (fl m = [] ∧ fl 0 = [] ∧ (physmemPageAlloc T (d + 4) m).run s = .ok (.error .oom, s)) ∨
      (¬(fl m = [] ∧ fl 0 = []) ∧
        ∃ addr s', (physmemPageAlloc T (d + 4) m).run s = .ok (.ok addr, s')) := by
  by_cases hboth : fl m = [] ∧ fl 0 = []
  · exact Or.inl ⟨hboth.1, hboth.2, feederAlloc_empty h hm hf hsrc hboth.1 hboth.2 d⟩
  · refine Or.inr ⟨hboth, ?_⟩
    rcases feederPhysmemPageAlloc_run h hm hm0 hf hsrc d with ⟨s₁, h₁, hcount, -, -, hrun⟩
    -- the refill moves pages, so one of the two lists still has one
    set n := refillCount f fl m
    have hfed : refilled fl m n m = ((fl 0).take n).reverse ++ fl m := Function.update_self ..
    have hsource : refilled fl m n 0 = (fl 0).drop n := by
      rw [refilled, Function.update_of_ne hm0.symm, Function.update_self]
    have hpage : ∀ k < s.count, refilled fl m n k ≠ [] →
        ∃ addr s', (commonPhysmemPageAlloc T (d + 2) k).run s₁ = .ok (.ok addr, s') := by
      intro k hk hne
      rcases List.exists_cons_of_ne_nil hne with ⟨x, xs, hxs⟩
      exact ⟨_, _, commonPhysmemPageAlloc_cons h₁ (hcount ▸ hk) hxs d⟩
    rw [hrun]
    split_ifs with hempty
    · refine hpage 0 h.pos fun hempty0 => hboth ?_
      rw [hfed, List.append_eq_nil_iff, List.reverse_eq_nil_iff] at hempty
      rw [hsource] at hempty0
      refine ⟨hempty.2, ?_⟩
      rw [← List.take_append_drop n (fl 0), hempty.1, hempty0]
      rfl
    · exact hpage m hm hempty

/-- A plain allocation fails when the list is empty, and only then. -/
lemma commonAlloc_answer (h : Holds T s fl) (d : ℕ) :
    (fl 0 = [] ∧ (physmemPageAlloc T (d + 4) 0).run s = .ok (.error .oom, s)) ∨
      (fl 0 ≠ [] ∧ ∃ addr s', (physmemPageAlloc T (d + 4) 0).run s = .ok (.ok addr, s')) := by
  have hcall : (physmemPageAlloc T (d + 4) 0).run s
      = (commonPhysmemPageAlloc T (d + 1 + 2) 0).run s := by
    simp only [physmemPageAlloc, getMgr, Prog.run_bind_gets, h.root, pageAlloc]
  rw [hcall]
  cases hfl : fl 0 with
  | nil => exact Or.inl ⟨rfl, commonPhysmemPageAlloc_nil h h.pos hfl _⟩
  | cons x xs => exact Or.inr ⟨by simp, _, _, commonPhysmemPageAlloc_cons h h.pos hfl _⟩

end Alloc

/-! ## The simulation -/

/-- The simulation relation: the same number of pages are out. -/
structure TwinInv (T T' : PageTable) (pages pages' : List ℕ) (keep reserve : ℕ) (t : Twins) :
    Prop where
  fed : ∃ fl, Conserved T pages t.fed fl
  fedCount : t.fed.st.count = 2
  fedFuncs : (t.fed.st.mgr 1).v = .feeder ⟨0, keep, reserve⟩
  plain : ∃ fl, Conserved T' pages' t.plain fl
  plainCount : t.plain.st.count = 1
  out : t.fed.out.length = t.plain.out.length
  pages : pages.length = pages'.length

section Runs

variable {T T' : PageTable} {pages pages' : List ℕ} {keep reserve d : ℕ} {t t' : Twins}
  {fl fl' : ℕ → List ℕ}

lemma Conserved.length_out {r : Pool} (h : Conserved T pages r fl) :
    r.out.length + (allFree r.st.count fl).length = pages.length := by
  have hlen := h.perm.length_eq
  rwa [List.length_append, List.length_map] at hlen

/-- The plain allocator has as many free pages as the source and the feeder together. -/
lemma TwinInv.free_eq (h : TwinInv T T' pages pages' keep reserve t)
    (hfed : Conserved T pages t.fed fl) (hplain : Conserved T' pages' t.plain fl') :
    (fl' 0).length = (fl 0).length + (fl 1).length := by
  have hlen := hfed.length_out
  have hlen' := hplain.length_out
  have hout := h.out
  have hpages := h.pages
  rw [h.fedCount] at hlen
  rw [h.plainCount] at hlen'
  simp only [allFree, List.range_succ, List.range_zero, List.nil_append, List.cons_append,
    List.flatMap_cons, List.flatMap_nil, List.append_nil, List.length_append] at hlen hlen'
  omega

/-- **The two allocators answer alike**, and a failing allocation of the feeder changes nothing. -/
lemma TwinInv.alloc (h : TwinInv T T' pages pages' keep reserve t)
    (hfed : Conserved T pages t.fed fl) (hplain : Conserved T' pages' t.plain fl') (d : ℕ) :
    (fl 0 = [] ∧ fl 1 = [] ∧
      (physmemPageAlloc T (d + 4) 1).run t.fed.st = .ok (.error .oom, t.fed.st) ∧
      (physmemPageAlloc T' (d + 4) 0).run t.plain.st = .ok (.error .oom, t.plain.st)) ∨
    (¬(fl 0 = [] ∧ fl 1 = []) ∧
      (∃ addr s, (physmemPageAlloc T (d + 4) 1).run t.fed.st = .ok (.ok addr, s)) ∧
      ∃ addr s, (physmemPageAlloc T' (d + 4) 0).run t.plain.st = .ok (.ok addr, s)) := by
  have h1 : 1 < t.fed.st.count := by rw [h.fedCount]; decide
  have hfree := h.free_eq hfed hplain
  have hiff : fl' 0 = [] ↔ fl 0 = [] ∧ fl 1 = [] := by
    rw [← List.length_eq_zero_iff, ← List.length_eq_zero_iff, ← List.length_eq_zero_iff, hfree]
    omega
  rcases feederAlloc_answer hfed.holds h1 one_ne_zero h.fedFuncs rfl d with
    ⟨hempty, hempty0, hrun⟩ | ⟨hsome, hrun⟩
  · rcases commonAlloc_answer hplain.holds d with ⟨-, hrun'⟩ | ⟨hne, -⟩
    · exact Or.inl ⟨hempty0, hempty, hrun, hrun'⟩
    · exact absurd (hiff.mpr ⟨hempty0, hempty⟩) hne
  · rcases commonAlloc_answer hplain.holds d with ⟨hempty', -⟩ | ⟨-, hrun'⟩
    · exact absurd (And.symm (hiff.mp hempty')) hsome
    · exact Or.inr ⟨fun hboth => hsome hboth.symm, hrun, hrun'⟩

lemma TwinInv.init (h : TwinInit T T' pages pages' keep reserve t) :
    TwinInv T T' pages pages' keep reserve t := by
  rcases h with ⟨hfeeder, hsrc, hout, hlen⟩
  have hinv := FeederInv.init hfeeder
  refine ⟨hinv.conserved, hinv.count, hinv.v, ⟨_, Conserved.init hsrc hout⟩, hsrc.count, ?_, hlen⟩
  rcases hfeeder with ⟨s, -, hfed⟩
  rw [hfed, hout]

/-- **Every call keeps the relation.** -/
lemma TwinInv.step (h : TwinInv T T' pages pages' keep reserve t) (hs : TwinStep T T' d t t') :
    TwinInv T T' pages pages' keep reserve t' := by
  rcases h.fed with ⟨fl, hfed⟩
  rcases h.plain with ⟨fl', hplain⟩
  have h1 : 1 < t.fed.st.count := by rw [h.fedCount]; decide
  have h0 : 0 < t.plain.st.count := hplain.holds.pos
  cases hs with
  | @alloc res res' s s' hrun hrun' =>
      rcases h.alloc hfed hplain d with
        ⟨-, -, hrun₁, hrun₂⟩ | ⟨-, ⟨addr, s₁, hrun₁⟩, addr', s₂, hrun₂⟩
      · -- both fail: nothing has changed
        rw [hrun₁, Except.ok.injEq, Prod.mk.injEq] at hrun
        rw [hrun₂, Except.ok.injEq, Prod.mk.injEq] at hrun'
        rcases hrun with ⟨rfl, rfl⟩
        rcases hrun' with ⟨rfl, rfl⟩
        exact h
      · rw [hrun₁, Except.ok.injEq, Prod.mk.injEq] at hrun
        rw [hrun₂, Except.ok.injEq, Prod.mk.injEq] at hrun'
        rcases hrun with ⟨rfl, rfl⟩
        rcases hrun' with ⟨rfl, rfl⟩
        have hframe := physmemPageAlloc_frame hfed.holds h1 hrun₁
        have hframe' := physmemPageAlloc_frame hplain.holds h0 hrun₂
        refine ⟨hfed.step (.alloc h1 hrun₁), hframe.1.trans h.fedCount,
          (hframe.2 1).trans h.fedFuncs, hplain.step (.alloc h0 hrun₂),
          hframe'.1.trans h.plainCount, ?_, h.pages⟩
        show t.fed.out.length + 1 = t.plain.out.length + 1
        rw [h.out]
  | @free addr addr' res res' s s' ha ha' hrun hrun' =>
      rcases physmemPageFree_cases hfed.holds h1 d addr with ⟨k, -, hrun₁⟩
      rcases physmemPageFree_cases hplain.holds h0 d addr' with ⟨k', -, hrun₂⟩
      have hnext := hfed.step (.free h1 ha hrun)
      have hnext' := hplain.step (.free h0 ha' hrun')
      rw [hrun₁, Except.ok.injEq, Prod.mk.injEq] at hrun
      rw [hrun₂, Except.ok.injEq, Prod.mk.injEq] at hrun'
      rcases hrun with ⟨-, rfl⟩
      rcases hrun' with ⟨-, rfl⟩
      refine ⟨hnext, h.fedCount, ?_, hnext', h.plainCount, ?_, h.pages⟩
      · rw [Managers.push_v]
        exact h.fedFuncs
      · show (t.fed.out.erase addr).length = (t.plain.out.erase addr').length
        rw [List.length_erase_of_mem ha, List.length_erase_of_mem ha', h.out]

theorem TwinReachable.inv (hr : TwinReachable T T' pages pages' keep reserve d t) :
    TwinInv T T' pages pages' keep reserve t :=
  Reachable.invariant (I := TwinInv T T' pages pages' keep reserve) (fun _ h => TwinInv.init h)
    (fun _ _ h hs => h.step hs) hr

/-- **A feeder is invisible to its client.**  After any sequence of calls, a feeder over a source and
a plain physmem with as many free pages at the start answer the next call alike: both allocations
return with the same `physmem_error_t`, and both frees succeed.  The feeder's allocation fails
exactly when its list and the source's are both empty, and then leaves the memory as it was. -/
theorem feeder_invisible (hr : TwinReachable T T' pages pages' keep reserve d t) :
    (∃ res s res' s', (physmemPageAlloc T (d + 4) 1).run t.fed.st = .ok (res, s) ∧
      (physmemPageAlloc T' (d + 4) 0).run t.plain.st = .ok (res', s') ∧ answer res = answer res' ∧
      (answer res = .error .oom ↔
        t.fed.st.links.lhFirst 0 = none ∧ t.fed.st.links.lhFirst 1 = none) ∧
      (∀ e, answer res = .error e → e = .oom ∧ s = t.fed.st)) ∧
    (∀ addr ∈ t.fed.out, ∀ addr' ∈ t.plain.out, ∃ s s',
      (physmemPageFree T (d + 4) 1 addr).run t.fed.st = .ok (.ok (), s) ∧
      (physmemPageFree T' (d + 4) 0 addr').run t.plain.st = .ok (.ok (), s')) := by
  have h := hr.inv
  rcases h.fed with ⟨fl, hfed⟩
  rcases h.plain with ⟨fl', hplain⟩
  have h1 : 1 < t.fed.st.count := by rw [h.fedCount]; decide
  have hfirst : ∀ m < t.fed.st.count, t.fed.st.links.lhFirst m = (fl m).head? := fun m hm =>
    (hfed.holds.chain m hm).read_eq
  refine ⟨?_, ?_⟩
  · rw [hfirst 0 hfed.holds.pos, hfirst 1 h1, List.head?_eq_none_iff, List.head?_eq_none_iff]
    rcases h.alloc hfed hplain d with
      ⟨he, he', hrun, hrun'⟩ | ⟨hne, ⟨addr, s, hrun⟩, addr', s', hrun'⟩
    · refine ⟨_, _, _, _, hrun, hrun', rfl, ⟨fun _ => ⟨he, he'⟩, fun _ => rfl⟩, ?_⟩
      intro e he
      obtain rfl : PhysmemError.oom = e := Except.error.inj he
      exact ⟨rfl, rfl⟩
    · refine ⟨_, _, _, _, hrun, hrun', rfl, ⟨?_, fun hboth => absurd hboth hne⟩, ?_⟩
      · intro hfail
        exact absurd hfail (by simp [answer, Except.map])
      · intro e hfail
        exact absurd hfail (by simp [answer, Except.map])
  · intro addr _ addr' _
    rcases physmemPageFree_cases hfed.holds h1 d addr with ⟨k, -, hrun⟩
    rcases physmemPageFree_cases hplain.holds hplain.holds.pos d addr' with ⟨k', -, hrun'⟩
    exact ⟨_, _, hrun, hrun'⟩

/-- Three pages behind a feeder that keeps one in stock, and three pages without one: after an
allocation from either, the lists of the feeder and its source are not both empty, and the next
allocations succeed. -/
theorem feeder_invisible_three : ∃ t : Twins,
    TwinReachable i686PageTable i686PageTable [1, 2, 3] [1, 2, 3] 1 1 0 t ∧
      t.fed.out = [8192] ∧ t.plain.out = [4096] ∧
      ∃ res s res' s', (physmemPageAlloc i686PageTable 4 1).run t.fed.st = .ok (res, s) ∧
        (physmemPageAlloc i686PageTable 4 0).run t.plain.st = .ok (res', s') ∧
        answer res = answer res' := by
  have h₀ : TwinReachable i686PageTable i686PageTable [1, 2, 3] [1, 2, 3] 1 1 0
      { fed := { st := feederPhysmemCreate threePages 0 1 1, out := [] }
        plain := { st := threePages, out := [] } } :=
    .base ⟨⟨threePages, threePages_isSource, rfl⟩, threePages_isSource, rfl, rfl⟩
  have h₁ := h₀.tail (.alloc rfl rfl)
  rcases (feeder_invisible h₁).1 with ⟨res, s, res', s', hrun, hrun', hans, -⟩
  exact ⟨_, h₁, rfl, rfl, res, s, res', s', hrun, hrun', hans⟩

end Runs

end Akaris
