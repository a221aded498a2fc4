import Akaris.AddressSpace.Mapping

/-!
# Mapping a region, again

`memory_region_map` with a null frame address stops at the first page for which `localmem` has no
frame, and leaves the pages before it mapped.  The caller frees memory and calls it again.
`Attempts` is such a history: calls that ran out of memory, frees of frames that are not mapped in
the address space, and a call that succeeded.

`RegionMapped` says what such a history comes to.  One call gives `RegionMapped.success`, and
`RegionMapped.retry` puts an attempt that ran out of memory in front, where the pages it mapped are
told by their frames.

* **`region_mapped_with_retries`** — a region that `init_region` accepted is completely mapped, with
  as many frames as it had pages without one, and nothing else changes.
-/

namespace Akaris

variable {ε σ : Type}

-- the rules are all that is used of it: computing it would run the program
attribute [local irreducible] Prog.wp

/-- No call of the virtual memory fails. -/
def noneFails : VirtmemCall → ℕ → Bool := fun _ _ => false

section Retries

variable {c : Cpu ε σ} {I : VirtmemInterface c noneFails} {as : AddressSpace} {mr : MemoryRegion}
  {pd flags start n m taken : ℕ} {freed : Finset ℕ} {fr fr' : ℕ → ℕ} {s s₁ s' : σ}

/-- **A history of attempts** to map a region, with the number of frames they took and the frames
that were freed in between. -/
inductive Attempts (I : VirtmemInterface c noneFails) (as : AddressSpace) (mr : MemoryRegion) :
    ℕ → Finset ℕ → σ → σ → Prop
  | success {s s' : σ} : (commonMemoryRegionMap c as mr 0).run s = .ok (.ok (), s') →
      Attempts I as mr (I.inUse s' \ I.inUse s).card ∅ s s'
  | outOfMemory {s s₁ s' : σ} {taken : ℕ} {freed : Finset ℕ} :
      (commonMemoryRegionMap c as mr 0).run s = .ok (.error .oom, s₁) →
      Attempts I as mr taken freed s₁ s' →
      Attempts I as mr ((I.inUse s₁ \ I.inUse s).card + taken) freed s s'
  | free {s s₁ s' : σ} {taken f : ℕ} {freed : Finset ℕ} {r : Except PhysmemError Unit} :
      (∀ v, (I.page s as.pd v).frame ≠ some f) → (c.physmemPageFree f).run s = .ok (r, s₁) →
      Attempts I as mr taken freed s₁ s' → Attempts I as mr taken (insert f freed) s s'

/-- `user_get_page` returns 0 exactly for the pages without a frame. -/
def ZeroIsUnmapped (I : VirtmemInterface c noneFails) (pd : ℕ) (s : σ) : Prop :=
  ∀ v, (I.page s pd v).frame ≠ some 0

/-- The pages that have no frame, of the first `n` from `start` on. -/
def unmappedPages (I : VirtmemInterface c noneFails) (pd start n : ℕ) (s : σ) : Finset ℕ :=
  {i ∈ Finset.range n | (I.page s pd (pageAddr start i)).frame = none}

/-- **What a history comes to**, with `fr i` the frame of page `i` if it had none. -/
structure RegionMapped (I : VirtmemInterface c noneFails) (pd flags start n taken : ℕ)
    (freed : Finset ℕ) (fr : ℕ → ℕ) (s s' : σ) : Prop where
  pages : ∀ i < n, I.page s' pd (pageAddr start i) =
    { frame := some ((I.page s pd (pageAddr start i)).frame.getD (fr i)), present := true,
      flags := flags }
  outside : ∀ pd' v, ¬(pd' = pd ∧ ∃ i < n, v = pageAddr start i) →
    I.page s' pd' v = I.page s pd' v
  fresh : ∀ i ∈ unmappedPages I pd start n s, fr i ≠ 0 ∧ (fr i ∈ I.inUse s → fr i ∈ freed)
  distinct : ∀ i ∈ unmappedPages I pd start n s, ∀ j ∈ unmappedPages I pd start n s,
    fr i = fr j → i = j
  taken : taken = (unmappedPages I pd start n s).card

lemma mem_unmappedPages {i : ℕ} : i ∈ unmappedPages I pd start n s ↔
    i < n ∧ (I.page s pd (pageAddr start i)).frame = none := by
  rw [unmappedPages, Finset.mem_filter, Finset.mem_range]

lemma ZeroIsUnmapped.needs_iff (hz : ZeroIsUnmapped I pd s) {v : ℕ} :
    I.Needs s pd v ↔ (I.page s pd v).frame = none := by
  have hv := hz v
  rw [VirtmemInterface.Needs]
  cases hf : (I.page s pd v).frame with
  | none => simp [noneFails]
  | some f =>
      rw [hf] at hv
      simpa [noneFails] using hv

/-- A page in the part that one attempt filled. -/
lemma Filled.page (h : Filled I pd flags start n fr s s') (hz : ZeroIsUnmapped I pd s) {i : ℕ}
    (hi : i < n) : I.page s' pd (pageAddr start i) =
      { frame := some ((I.page s pd (pageAddr start i)).frame.getD (fr i)), present := true,
        flags := flags } := by
  rw [h.pages i hi, fillPage]
  simp only [hz.needs_iff, noneFails, Bool.false_eq_true, false_or, if_false]
  cases hf : (I.page s pd (pageAddr start i)).frame with
  | none => simp
  | some f => simp [hf]

/-- No attempt takes a frame away from a page. -/
lemma Filled.frame_kept (h : Filled I pd flags start n fr s s') (hz : ZeroIsUnmapped I pd s)
    {v f : ℕ} (hv : (I.page s pd v).frame = some f) : (I.page s' pd v).frame = some f := by
  by_cases hin : ∃ i < n, v = pageAddr start i
  · rcases hin with ⟨i, hi, rfl⟩
    rw [h.page hz hi, hv]
    rfl
  · rw [h.outside pd v (fun h => hin h.2), hv]

lemma Filled.zeroIsUnmapped (h : Filled I pd flags start n fr s s') (hz : ZeroIsUnmapped I pd s) :
    ZeroIsUnmapped I pd s' := by
  intro v
  by_cases hin : ∃ i < n, v = pageAddr start i
  · rcases hin with ⟨i, hi, rfl⟩
    rw [h.page hz hi]
    cases hf : (I.page s pd (pageAddr start i)).frame with
    | none =>
        have hfresh := (h.fresh i hi (hz.needs_iff.mpr hf)).1
        simpa using hfresh
    | some f =>
        have hne := hz (pageAddr start i)
        rw [hf] at hne
        simpa using hne
  · rw [h.outside pd v (fun h => hin h.2)]
    exact hz v

/-- The pages that an attempt did not get to. -/
lemma Filled.behind (h : Filled I pd flags start m fr s s') (hn : n ≤ 2 ^ 20) {i : ℕ} (hi : ¬i < m)
    (hin : i < n) :
    I.page s' pd (pageAddr start i) = I.page s pd (pageAddr start i) := by
  refine h.outside pd _ ?_
  rintro ⟨-, j, hj, heq⟩
  have hij := pageAddr_inj (by omega) (by omega) heq
  omega

/-- A frame that was in use and not mapped is not mapped by an attempt. -/
lemma Filled.not_mapped (h : Filled I pd flags start n fr s s') (hz : ZeroIsUnmapped I pd s) {f : ℕ}
    (huse : f ∈ I.inUse s) (hf : ∀ v, (I.page s pd v).frame ≠ some f) (v : ℕ) :
    (I.page s' pd v).frame ≠ some f := by
  by_cases hin : ∃ i < n, v = pageAddr start i
  · rcases hin with ⟨i, hi, rfl⟩
    rw [h.page hz hi]
    cases hframe : (I.page s pd (pageAddr start i)).frame with
    | none =>
        rintro heq
        have hfr : fr i = f := Option.some.inj heq
        exact (h.fresh i hi (hz.needs_iff.mpr hframe)).2 (hfr ▸ huse)
    | some f' =>
        rw [← hframe]
        simpa [hframe] using hf (pageAddr start i)
  · rw [h.outside pd v (fun h => hin h.2)]
    exact hf v

/-- **An attempt takes one frame for every page it mapped.** -/
lemma Filled.card_taken (h : Filled I pd flags start n fr s s') (hz : ZeroIsUnmapped I pd s) :
    (I.inUse s' \ I.inUse s).card = (unmappedPages I pd start n s).card := by
  have himage : I.inUse s' \ I.inUse s = (unmappedPages I pd start n s).image fr := by
    ext x
    rw [Finset.mem_sdiff, h.inUse, Finset.mem_image]
    constructor
    · rintro ⟨hx | ⟨i, hi, hne, rfl⟩, hout⟩
      · exact absurd hx hout
      · exact ⟨i, mem_unmappedPages.mpr ⟨hi, hz.needs_iff.mp hne⟩, rfl⟩
    · rintro ⟨i, hi, rfl⟩
      rw [mem_unmappedPages] at hi
      have hne := hz.needs_iff.mpr hi.2
      exact ⟨Or.inr ⟨i, hi.1, hne, rfl⟩, (h.fresh i hi.1 hne).2⟩
  rw [himage, Finset.card_image_of_injOn]
  intro i hi j hj heq
  rw [Finset.mem_coe, mem_unmappedPages] at hi hj
  exact h.distinct i hi.1 j hj.1 (hz.needs_iff.mpr hi.2) (hz.needs_iff.mpr hj.2) heq

/-- The pages without a frame are those that the attempt got to and those that are left. -/
lemma Filled.card_unmapped (h : Filled I pd flags start m fr s s₁) (hz : ZeroIsUnmapped I pd s)
    (hm : m ≤ n) (hn : n ≤ 2 ^ 20) : (unmappedPages I pd start n s).card =
      (unmappedPages I pd start m s).card + (unmappedPages I pd start n s₁).card := by
  rw [← Finset.card_union_of_disjoint]
  · congr 1
    ext i
    rw [Finset.mem_union, mem_unmappedPages, mem_unmappedPages, mem_unmappedPages]
    by_cases hi : i < m
    · have hframe : (I.page s₁ pd (pageAddr start i)).frame ≠ none := by
        rw [h.page hz hi]
        simp
      constructor
      · rintro ⟨-, hnone⟩
        exact Or.inl ⟨hi, hnone⟩
      · rintro (⟨-, hnone⟩ | ⟨-, hnone⟩)
        · exact ⟨by omega, hnone⟩
        · exact absurd hnone hframe
    · constructor
      · rintro ⟨hin, hnone⟩
        exact Or.inr ⟨hin, by rwa [h.behind hn hi hin]⟩
      · rintro (⟨him, -⟩ | ⟨hin, hnone⟩)
        · exact absurd him hi
        · exact ⟨hin, by rwa [h.behind hn hi hin] at hnone⟩
  · rw [Finset.disjoint_left]
    intro i hi hi'
    rw [mem_unmappedPages] at hi hi'
    rw [h.page hz hi.1] at hi'
    simp at hi'

/-! ## Histories -/

/-- A call that succeeded. -/
lemma RegionMapped.success (h : Filled I pd flags start n fr s s') (hz : ZeroIsUnmapped I pd s) :
    RegionMapped I pd flags start n (I.inUse s' \ I.inUse s).card ∅ fr s s' := by
  refine ⟨fun i hi => h.page hz hi, h.outside, ?_, ?_, h.card_taken hz⟩
  · intro i hi
    rw [mem_unmappedPages] at hi
    have hfresh := h.fresh i hi.1 (hz.needs_iff.mpr hi.2)
    exact ⟨hfresh.1, fun hin => absurd hin hfresh.2⟩
  · intro i hi j hj heq
    rw [mem_unmappedPages] at hi hj
    exact h.distinct i hi.1 j hj.1 (hz.needs_iff.mpr hi.2) (hz.needs_iff.mpr hj.2) heq

/-- **An attempt that ran out of memory, in front of a history.**  Its frames are in the pages, and
no frame that is mapped gets freed. -/
lemma RegionMapped.retry (h : Filled I pd flags start m fr s s₁) (hz : ZeroIsUnmapped I pd s)
    (hm : m ≤ n) (hn : n ≤ 2 ^ 20) (hfreed : ∀ v f, (I.page s₁ pd v).frame = some f → f ∉ freed)
    (h' : RegionMapped I pd flags start n taken freed fr' s₁ s') :
    RegionMapped I pd flags start n ((I.inUse s₁ \ I.inUse s).card + taken) freed
      (fun i => if i < m then fr i else fr' i) s s' := by
  -- a page without a frame got one in the attempt, or still has none
  have hfirst : ∀ i ∈ unmappedPages I pd start n s, i < m →
      fr i ≠ 0 ∧ fr i ∉ I.inUse s ∧ fr i ∈ I.inUse s₁ ∧ fr i ∉ freed := by
    intro i hi him
    rw [mem_unmappedPages] at hi
    have hne := hz.needs_iff.mpr hi.2
    have hfresh := h.fresh i him hne
    refine ⟨hfresh.1, hfresh.2, (h.inUse _).mpr (Or.inr ⟨i, him, hne, rfl⟩), ?_⟩
    refine hfreed (pageAddr start i) (fr i) ?_
    rw [h.page hz him, hi.2]
    rfl
  have hleft : ∀ i ∈ unmappedPages I pd start n s, ¬i < m →
      i ∈ unmappedPages I pd start n s₁ := by
    intro i hi him
    rw [mem_unmappedPages] at hi ⊢
    exact ⟨hi.1, by rw [h.behind hn him hi.1, hi.2]⟩
  refine ⟨?_, ?_, ?_, ?_, ?_⟩
  · intro i hi
    rw [h'.pages i hi]
    by_cases him : i < m
    · rw [h.page hz him, if_pos him]
      rfl
    · rw [h.behind hn him hi, if_neg him]
  · intro pd' v hout
    rw [h'.outside pd' v hout, h.outside pd' v]
    rintro ⟨rfl, i, hi, rfl⟩
    exact hout ⟨rfl, i, by omega, rfl⟩
  · intro i hi
    by_cases him : i < m
    · rw [if_pos him]
      have hf := hfirst i hi him
      exact ⟨hf.1, fun hin => absurd hin hf.2.1⟩
    · rw [if_neg him]
      have hf := h'.fresh i (hleft i hi him)
      exact ⟨hf.1, fun hin => hf.2 ((h.inUse _).mpr (Or.inl hin))⟩
  · intro i hi j hj heq
    by_cases him : i < m <;> by_cases hjm : j < m
    · rw [if_pos him, if_pos hjm] at heq
      rw [mem_unmappedPages] at hi hj
      exact h.distinct i him j hjm (hz.needs_iff.mpr hi.2) (hz.needs_iff.mpr hj.2) heq
    · rw [if_pos him, if_neg hjm] at heq
      have hf := hfirst i hi him
      rw [heq] at hf
      exact absurd ((h'.fresh j (hleft j hj hjm)).2 hf.2.2.1) hf.2.2.2
    · rw [if_neg him, if_pos hjm] at heq
      have hf := hfirst j hj hjm
      rw [← heq] at hf
      exact absurd ((h'.fresh i (hleft i hi him)).2 hf.2.2.1) hf.2.2.2
    · rw [if_neg him, if_neg hjm] at heq
      exact h'.distinct i (hleft i hi him) j (hleft j hj hjm) heq
  · rw [h.card_taken hz, h.card_unmapped hz hm hn, h'.taken]

/-- **A free in front of a history.** -/
lemma RegionMapped.free {f : ℕ} (hpage : I.page s₁ = I.page s)
    (huse : I.inUse s₁ = (I.inUse s).erase f)
    (h : RegionMapped I pd flags start n taken freed fr s₁ s') :
    RegionMapped I pd flags start n taken (insert f freed) fr s s' := by
  have hsame : unmappedPages I pd start n s₁ = unmappedPages I pd start n s := by
    rw [unmappedPages, unmappedPages, hpage]
  refine ⟨?_, ?_, ?_, ?_, ?_⟩
  · intro i hi
    rw [h.pages i hi, hpage]
  · intro pd' v hout
    rw [h.outside pd' v hout, hpage]
  · intro i hi
    rw [← hsame] at hi
    have hfresh := h.fresh i hi
    rw [huse, Finset.mem_erase] at hfresh
    rw [Finset.mem_insert]
    tauto
  · rw [← hsame]
    exact h.distinct
  · rw [← hsame]
    exact h.taken

/-- What one call does to a region. -/
lemma commonMemoryRegionMap_filled (hc : c.physmemPageSize = 4096) (hs : mr.start % 4096 = 0)
    (hl : mr.length % 4096 = 0) (hstart : mr.start < 2 ^ 32) (hlen : mr.length < 2 ^ 32) (s : σ) :
    Prog.wp (commonMemoryRegionMap c as mr 0)
      (fun r s' => ∃ m fr, m ≤ mr.length / 4096 ∧
        Filled I as.pd (regionPageFlags mr) mr.start m fr s s' ∧
        (r = .ok () ∧ m = mr.length / 4096 ∨ r = .error .oom))
      (fun _ => False) s := by
  rw [commonMemoryRegionMap_of_aligned hc hs hl (Or.inl rfl), if_pos rfl]
  refine Prog.wp_mono (memoryRegionMapAllocate_wp hc hstart (by omega) (by simp))
    (fun _ _ h => h) ?_
  rintro _ ⟨v, hv⟩
  exact absurd hv Bool.false_ne_true

/-- The frames that are freed in a history were not mapped at its beginning. -/
lemma Attempts.freed_not_mapped (hc : c.physmemPageSize = 4096) (hs : mr.start % 4096 = 0)
    (hl : mr.length % 4096 = 0) (hstart : mr.start < 2 ^ 32) (hlen : mr.length < 2 ^ 32)
    (h : Attempts I as mr taken freed s s') (hz : ZeroIsUnmapped I as.pd s) {v f : ℕ}
    (hv : (I.page s as.pd v).frame = some f) : f ∉ freed := by
  induction h with
  | success _ => exact Finset.notMem_empty f
  | outOfMemory hrun _ ih =>
      rcases Prog.wp_run (commonMemoryRegionMap_filled hc hs hl hstart hlen _) hrun with
        ⟨m, fr, -, hfilled, -⟩
      exact ih (hfilled.zeroIsUnmapped hz) (hfilled.frame_kept hz hv)
  | free hfree hrun _ ih =>
      have hpage := (Prog.wp_run (I.pageFree _ _) hrun).1
      rw [Finset.mem_insert]
      rintro (rfl | hmem)
      · exact hfree v hv
      · refine ih ?_ ?_ hmem
        · rwa [ZeroIsUnmapped, hpage]
        · rwa [hpage]

/-- **What a history of attempts comes to**, by induction on the history. -/
lemma Attempts.mapped (hc : c.physmemPageSize = 4096) (hs : mr.start % 4096 = 0)
    (hl : mr.length % 4096 = 0) (hstart : mr.start < 2 ^ 32) (hlen : mr.length < 2 ^ 32)
    (h : Attempts I as mr taken freed s s') (hz : ZeroIsUnmapped I as.pd s) :
    ∃ fr, RegionMapped I as.pd (regionPageFlags mr) mr.start (mr.length / 4096) taken freed fr
      s s' := by
  induction h with
  | success hrun =>
      rcases Prog.wp_run (commonMemoryRegionMap_filled hc hs hl hstart hlen _) hrun with
        ⟨m, fr, -, hfilled, ⟨-, rfl⟩ | hr⟩
      · exact ⟨fr, .success hfilled hz⟩
      · exact absurd hr (by simp)
  | outOfMemory hrun hrest ih =>
      rcases Prog.wp_run (commonMemoryRegionMap_filled hc hs hl hstart hlen _) hrun with
        ⟨m, fr, hm, hfilled, -⟩
      have hz₁ := hfilled.zeroIsUnmapped hz
      rcases ih hz₁ with ⟨fr', hmapped⟩
      refine ⟨_, .retry hfilled hz hm (by omega) ?_ hmapped⟩
      intro v f hv
      exact hrest.freed_not_mapped hc hs hl hstart hlen hz₁ hv
  | free hfree hrun _ ih =>
      rcases Prog.wp_run (I.pageFree _ _) hrun with ⟨hpage, huse⟩
      rcases ih (by rwa [ZeroIsUnmapped, hpage]) with ⟨fr, hmapped⟩
      exact ⟨fr, hmapped.free hpage huse⟩

end Retries

/-! ## Regions of `init_region` -/

section Accepted

variable {c : Cpu ε σ} {I : VirtmemInterface c noneFails} {am am' : AsMem} {m start len : ℕ}

/-- **The alignment assertions hold** for a region that was accepted. -/
lemma initRegion_aligned (hc : c.physmemPageSize = 4096) (hstart : start < 2 ^ 32)
    (hinit : (commonAddressSpaceInitRegion c m start len).run am = .ok (.ok (), am')) :
    (am'.region m).start % 4096 = 0 ∧ (am'.region m).length % 4096 = 0 ∧
      (am'.region m).start < 2 ^ 32 ∧ (am'.region m).length < 2 ^ 32 := by
  by_cases hzero : start = 0
  · rw [commonAddressSpaceInitRegion, if_pos hzero] at hinit
    exact absurd (Prod.mk.inj (Except.ok.inj hinit)).1 (by simp)
  have hm : m ≠ 0 := by
    rw [commonAddressSpaceInitRegion, if_neg hzero] at hinit
    exact (Prog.assert_of_run hinit).1
  rw [initRegion_run c hc hm hzero hstart] at hinit
  split_ifs at hinit
  swap
  · exact absurd (Prod.mk.inj (Except.ok.inj hinit)).1 (by simp)
  rw [← (Prod.mk.inj (Except.ok.inj hinit)).2]
  simp only [AsMem.setLocation, Function.update_self]
  refine ⟨?_, ?_, regionStart_lt hstart, regionLength_lt len⟩
  · unfold regionStart
    split_ifs <;> omega
  · unfold regionLength
    omega

/-- What a region looks like that was mapped to the frames from `p` on. -/
def MappedTo (I : VirtmemInterface c noneFails) (pd : ℕ) (mr : MemoryRegion) (p : ℕ) (s s' : σ) :
    Prop :=
  (∀ i < mr.length / 4096, I.page s' pd (pageAddr mr.start i) =
    { frame := some (pageAddr p i), present := true, flags := regionPageFlags mr }) ∧
  ∀ pd' v, ¬(pd' = pd ∧ ∃ i < mr.length / 4096, v = pageAddr mr.start i) →
    I.page s' pd' v = I.page s pd' v

lemma Entered.mappedTo {as : AddressSpace} {mr : MemoryRegion} {p : ℕ} {s s' : σ}
    (h : Entered I as.pd (regionPageFlags mr) mr.start p (mr.length / 4096) s s') :
    MappedTo I as.pd mr p s s' := by
  refine ⟨fun i hi => ?_, h.outside⟩
  rw [h.pages i hi, fillPage]
  simp [noneFails]

/-- **A region is completely mapped, in the end.**  Whatever its flags are by then, the region that
`init_region` accepted passes the assertions.  With no frame address, any history of attempts that
ends well maps every page of it: those that had a frame keep it, the others get frames that differ
from each other and were not in use, as many as there were such pages.  With a frame address, the
pages are mapped to the frames from there on.  No other page changes. -/
theorem region_mapped_with_retries (I : VirtmemInterface c noneFails)
    (hc : c.physmemPageSize = 4096) (hstart : start < 2 ^ 32)
    (hinit : (commonAddressSpaceInitRegion c m start len).run am = .ok (.ok (), am'))
    (writable executable : Bool) (mr : MemoryRegion)
    (hmr : mr = { am'.region m with writable := writable, executable := executable }) :
    (∀ p < 2 ^ 32, p % 4096 = 0 → ∀ s, ∃ r, (commonMemoryRegionMap c am'.as mr p).run s = .ok r) ∧
    (∀ s s' taken freed, ZeroIsUnmapped I am'.as.pd s → Attempts I am'.as mr taken freed s s' →
      ∃ fr, RegionMapped I am'.as.pd (regionPageFlags mr) mr.start (mr.length / 4096) taken freed
        fr s s') ∧
    ∀ p < 2 ^ 32, p ≠ 0 → p % 4096 = 0 → ∀ s r s',
      (commonMemoryRegionMap c am'.as mr p).run s = .ok (r, s') →
        r = .ok () ∧ MappedTo I am'.as.pd mr p s s' := by
  have haligned := initRegion_aligned hc hstart hinit
  rcases haligned with ⟨hs, hl, hs32, hl32⟩
  replace hs : mr.start % 4096 = 0 := by rw [hmr]; exact hs
  replace hl : mr.length % 4096 = 0 := by rw [hmr]; exact hl
  replace hs32 : mr.start < 2 ^ 32 := by rw [hmr]; exact hs32
  replace hl32 : mr.length < 2 ^ 32 := by rw [hmr]; exact hl32
  have hexact : ∀ p < 2 ^ 32, p ≠ 0 → p % 4096 = 0 → ∀ s,
      Prog.wp (commonMemoryRegionMap c am'.as mr p)
        (fun r s' => r = .ok () ∧ MappedTo I am'.as.pd mr p s s') (fun _ => False) s := by
    intro p hp hp0 hpa s
    rw [commonMemoryRegionMap_of_aligned hc hs hl (Or.inr hpa), if_neg hp0]
    exact Prog.wp_mono (memoryRegionMapExact_wp hc hs32 hp (by omega))
      (fun r s' h => ⟨h.1, h.2.mappedTo⟩) fun _ he => he
  refine ⟨?_, ?_, ?_⟩
  · intro p hp hpa s
    by_cases hp0 : p = 0
    · rw [hp0]
      have hwp : Prog.wp (commonMemoryRegionMap c am'.as mr 0) _ (fun _ => False) s :=
        commonMemoryRegionMap_filled (I := I) hc hs hl hs32 hl32 s
      rcases Prog.wp_returns hwp with ⟨r, s', hrun, -⟩
      exact ⟨_, hrun⟩
    · rcases Prog.wp_returns (hexact p hp hp0 hpa s) with ⟨r, s', hrun, -⟩
      exact ⟨_, hrun⟩
  · intro s s' taken freed hz hatt
    exact hatt.mapped hc hs hl hs32 hl32 hz
  · intro p hp hp0 hpa s r s' hrun
    have hwp := Prog.wp_run (hexact p hp hp0 hpa s) hrun
    exact hwp

/-- A request for two pages. -/
def twoPages : AsMem :=
  Prog.after (commonAddressSpaceInitRegion (scheduled noneFails) 1 4096 8192)
    ⟨⟨8192, []⟩, fun _ => ⟨0, 0, false, false⟩⟩

/-- An attempt to map them. -/
def mapTwoPages : Prog (AsFault Empty) PlainPages (Except AddressSpaceErr Unit) :=
  commonMemoryRegionMap (scheduled noneFails) twoPages.as (twoPages.region 1) 0

/-- Two frames, one of them in use. -/
def oneFrameLeft : PlainPages := { noPages 2 with inUse := {40960} }

/-- The state after an attempt and the free of the frame that was in use. -/
def oneFrameFreed : PlainPages :=
  { Prog.after mapTwoPages oneFrameLeft with
    inUse := (Prog.after mapTwoPages oneFrameLeft).inUse.erase 40960 }

/-- The first attempt runs out of memory after one page, and the second maps the other. -/
theorem region_mapped_with_retries_two : ∃ taken s' fr,
    RegionMapped (scheduledInterface noneFails) 8192 (regionPageFlags (twoPages.region 1)) 4096 2
      taken {40960} fr oneFrameLeft s' := by
  have hinit : (commonAddressSpaceInitRegion (scheduled noneFails) 1 4096 8192).run
      ⟨⟨8192, []⟩, fun _ => ⟨0, 0, false, false⟩⟩ = .ok (.ok (), twoPages) :=
    Prog.run_after (a := Except.ok ()) (by decide +kernel)
  have hfirst : mapTwoPages.run oneFrameLeft = .ok (.error .oom, Prog.after mapTwoPages oneFrameLeft) :=
    Prog.run_after (a := Except.error AddressSpaceErr.oom) (by decide +kernel)
  have hfree : ((scheduled noneFails).physmemPageFree 40960).run
      (Prog.after mapTwoPages oneFrameLeft) = .ok (.ok (), oneFrameFreed) := rfl
  have hsecond : mapTwoPages.run oneFrameFreed = .ok (.ok (), Prog.after mapTwoPages oneFrameFreed) :=
    Prog.run_after (a := Except.ok ()) (by decide +kernel)
  -- the frame that is freed was not mapped, since it was in use
  have hunmapped : ∀ v, ((Prog.after mapTwoPages oneFrameLeft).page 8192 v).frame ≠ some 40960 := by
    rcases Prog.wp_run (commonMemoryRegionMap_filled (I := scheduledInterface noneFails) rfl
      (by decide +kernel) (by decide +kernel) (by decide +kernel) (by decide +kernel) oneFrameLeft)
      hfirst with ⟨m, fr, -, hfilled, -⟩
    exact hfilled.not_mapped (fun v => by simp [scheduledInterface, oneFrameLeft, noPages])
      (Finset.mem_singleton_self _) (fun v => by simp [scheduledInterface, oneFrameLeft, noPages])
  rcases (region_mapped_with_retries (scheduledInterface noneFails) rfl (by decide) hinit false false
    (twoPages.region 1) (by decide +kernel)).2.1 oneFrameLeft _ _ _
    (fun v => by simp [scheduledInterface, oneFrameLeft, noPages])
    (.outOfMemory hfirst (.free hunmapped hfree (.success hsecond)))
    with ⟨fr, hmapped⟩
  exact ⟨_, _, fr, hmapped⟩

end Accepted

end Akaris
