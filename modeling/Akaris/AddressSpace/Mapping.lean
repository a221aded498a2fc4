import Akaris.AddressSpace.Regions

/-!
# Mapping a region

What `common_memory_region_map` does to an address space, over any virtual memory that keeps the
promises of its interface.  `VirtmemInterface` lists them: which calls fail is up to it, and a call
that fails does nothing.

`Filled` describes the work of the loop of `memory_region_map_allocate` on a number of pages.  A
page that had no frame gets a fresh one, the others keep theirs, and all get the flags, as far as
the calls did not fail.  Loops compose, `Filled.cons`, and so do attempts that ran out of memory,
since `user_get_page` tells the pages that already have a frame: `Mapping`.

* **`region_mapped_with_retries`** — a region is completely mapped after any number of attempts that
  ran out of memory, and takes as many frames as it had pages without one.
* **`success_means_mapped_iff`** — which failing calls are not noticed.
-/

namespace Akaris

variable {ε σ : Type}

-- the rules are all that is used of it: computing it would run the program
attribute [local irreducible] Prog.wp

/-! ## The interface -/

/-- What an address of a context is mapped to. -/
structure UserPage where
  frame : Option ℕ
  present : Bool
  flags : ℕ
  deriving DecidableEq, Repr

/-- The calls that may fail. -/
inductive VirtmemCall
  | userGetPage
  | userMapPage
  | userSetPageFlags
  deriving DecidableEq, Repr

/-- The pages after the one at `v` of context `pd` has become `x`. -/
def setPage (pages : ℕ → ℕ → UserPage) (pd v : ℕ) (x : UserPage) : ℕ → ℕ → UserPage :=
  fun pd' v' => if pd' = pd ∧ v' = v then x else pages pd' v'

/-- What the calls of a `struct cpu` promise.  `page` is the contents of the contexts, and `inUse`
the frames that were taken from `localmem`; `fails` says which calls fail.  This is an abstract
interface, asked of every state and of every address.  `i686Cpu` is no instance of it: it takes the
frames of its page tables from `localmem` as well, and its calls need windows and tables that are in
order. -/
structure VirtmemInterface (c : Cpu ε σ) (fails : VirtmemCall → ℕ → Bool) where
  page : σ → ℕ → ℕ → UserPage
  inUse : σ → Finset ℕ
  getPage : ∀ s pd v, Prog.wp (c.virtmemUserGetPage pd v)
    (fun r s' => r = (if fails .userGetPage v then .error .oom
        else .ok ((page s pd v).frame.getD 0)) ∧
      page s' = page s ∧ inUse s' = inUse s) (fun _ => False) s
  mapPage : ∀ s pd v p, Prog.wp (c.virtmemUserMapPage pd v p)
    (fun _ s' => page s' = setPage (page s) pd v (if fails .userMapPage v then page s pd v
        else { page s pd v with frame := some p }) ∧
      inUse s' = inUse s) (fun _ => False) s
  setFlags : ∀ s pd v flags, Prog.wp (c.virtmemUserSetPageFlags pd v flags)
    (fun _ s' => page s' = setPage (page s) pd v (if fails .userSetPageFlags v then page s pd v
        else { page s pd v with present := true, flags := flags }) ∧
      inUse s' = inUse s) (fun _ => False) s
  pageAlloc : ∀ s, Prog.wp c.physmemPageAlloc
    (fun r s' => page s' = page s ∧
      ((∃ p, r = .ok p ∧ p ≠ 0 ∧ p ∉ inUse s ∧ inUse s' = insert p (inUse s)) ∨
        ((∃ e, r = .error e) ∧ inUse s' = inUse s))) (fun _ => False) s
  pageFree : ∀ s f, Prog.wp (c.physmemPageFree f)
    (fun _ s' => page s' = page s ∧ inUse s' = (inUse s).erase f) (fun _ => False) s

/-- The address of page `i` of a region at `start`. -/
def pageAddr (start i : ℕ) : ℕ := wrap32 (start + i * 4096)

section Addresses

variable {start i j : ℕ}

lemma pageAddr_next : pageAddr (wrap32 (start + 4096)) i = pageAddr start (i + 1) := by
  unfold pageAddr wrap32
  omega

lemma pageAddr_zero (h : start < 2 ^ 32) : pageAddr start 0 = start := by
  rw [pageAddr, Nat.zero_mul, Nat.add_zero, wrap32_of_lt h]

lemma pageAddr_inj (hi : i < 2 ^ 20) (hj : j < 2 ^ 20) (h : pageAddr start i = pageAddr start j) :
    i = j := by
  unfold pageAddr wrap32 at h
  omega

end Addresses

@[simp] lemma setPage_self {pages : ℕ → ℕ → UserPage} {pd v : ℕ} {x : UserPage} :
    setPage pages pd v x pd v = x := if_pos ⟨rfl, rfl⟩

lemma setPage_of_ne {pages : ℕ → ℕ → UserPage} {pd v pd' v' : ℕ} {x : UserPage}
    (h : ¬(pd' = pd ∧ v' = v)) : setPage pages pd v x pd' v' = pages pd' v' := if_neg h

@[simp] lemma setPage_setPage {pages : ℕ → ℕ → UserPage} {pd v : ℕ} {x y : UserPage} :
    setPage (setPage pages pd v x) pd v y = setPage pages pd v y := by
  funext pd' v'
  by_cases h : pd' = pd ∧ v' = v
  · rw [setPage, if_pos h, setPage, if_pos h]
  · rw [setPage_of_ne h, setPage_of_ne h, setPage_of_ne h]

/-! ## Filling pages -/

/-- What becomes of a page at `v` that gets the frame `fresh`, if any, and the flags. -/
def fillPage (fails : VirtmemCall → ℕ → Bool) (flags v : ℕ) (fresh : Option ℕ) (x : UserPage) :
    UserPage :=
  let x := if fails .userMapPage v ∨ fresh = none then x else { x with frame := fresh }
  if fails .userSetPageFlags v then x else { x with present := true, flags := flags }

section Loops

variable {c : Cpu ε σ} {fails : VirtmemCall → ℕ → Bool} (I : VirtmemInterface c fails)
  {pd flags start n m f : ℕ} {fr : ℕ → ℕ} {s s₁ s' : σ}

/-- A lookup shows that the page needs a frame. -/
def VirtmemInterface.Needs (s : σ) (pd v : ℕ) : Prop :=
  fails .userGetPage v = false ∧ (I.page s pd v).frame.getD 0 = 0

instance (s : σ) (pd v : ℕ) : Decidable (I.Needs s pd v) := inferInstanceAs (Decidable (_ ∧ _))

/-- **What the loop does to `n` pages** from `start` on, with the fresh frames `fr`. -/
structure Filled (pd flags start n : ℕ) (fr : ℕ → ℕ) (s s' : σ) : Prop where
  pages : ∀ i < n, I.page s' pd (pageAddr start i) =
    fillPage fails flags (pageAddr start i)
      (if I.Needs s pd (pageAddr start i) then some (fr i) else none)
      (I.page s pd (pageAddr start i))
  outside : ∀ pd' v, ¬(pd' = pd ∧ ∃ i < n, v = pageAddr start i) →
    I.page s' pd' v = I.page s pd' v
  fresh : ∀ i < n, I.Needs s pd (pageAddr start i) → fr i ≠ 0 ∧ fr i ∉ I.inUse s
  distinct : ∀ i < n, ∀ j < n, I.Needs s pd (pageAddr start i) →
    I.Needs s pd (pageAddr start j) → fr i = fr j → i = j
  inUse : ∀ x, x ∈ I.inUse s' ↔
    x ∈ I.inUse s ∨ ∃ i < n, I.Needs s pd (pageAddr start i) ∧ fr i = x

variable {I}

lemma Filled.nil : Filled I pd flags start 0 fr s s := by
  refine ⟨?_, ?_, ?_, ?_, ?_⟩ <;> simp

/-- The frames of a page and those of the pages behind it. -/
def consFrames (f : ℕ) (fr : ℕ → ℕ) : ℕ → ℕ
  | 0 => f
  | i + 1 => fr i

/-- **One page more.** -/
lemma Filled.cons (hstart : start < 2 ^ 32) (hn : n + 1 ≤ 2 ^ 20)
    (hpage : I.page s₁ = setPage (I.page s) pd start (fillPage fails flags start
      (if I.Needs s pd start then some f else none) (I.page s pd start)))
    (hfresh : I.Needs s pd start → f ≠ 0 ∧ f ∉ I.inUse s)
    (huse : ∀ x, x ∈ I.inUse s₁ ↔ x ∈ I.inUse s ∨ I.Needs s pd start ∧ f = x)
    (h : Filled I pd flags (wrap32 (start + 4096)) n fr s₁ s') :
    Filled I pd flags start (n + 1) (consFrames f fr) s s' := by
  have h0 := pageAddr_zero hstart
  have hbehind : ∀ i < n, pageAddr start (i + 1) ≠ start := by
    intro i hi heq
    have hzero := pageAddr_inj (i := i + 1) (j := 0) (by omega) (by omega) (heq.trans h0.symm)
    omega
  -- the pages behind the first are what they were
  have hrest : ∀ i < n, I.page s₁ pd (pageAddr start (i + 1)) =
      I.page s pd (pageAddr start (i + 1)) := by
    intro i hi
    rw [hpage, setPage_of_ne]
    rintro ⟨-, heq⟩
    exact hbehind i hi heq
  have hneeds : ∀ i < n, I.Needs s₁ pd (pageAddr start (i + 1)) ↔
      I.Needs s pd (pageAddr start (i + 1)) := by
    intro i hi
    rw [VirtmemInterface.Needs, VirtmemInterface.Needs, hrest i hi]
  have hfresh' : ∀ i < n, I.Needs s pd (pageAddr start (i + 1)) →
      fr i ≠ 0 ∧ fr i ∉ I.inUse s₁ := by
    intro i hi hne
    refine h.fresh i hi ?_
    rw [pageAddr_next, hneeds i hi]
    exact hne
  refine ⟨?_, ?_, ?_, ?_, ?_⟩
  · intro i hi
    cases i with
    | zero =>
        rw [h0, h.outside pd start ?_, hpage, setPage_self]
        · rfl
        · rintro ⟨-, i, hi, heq⟩
          rw [pageAddr_next] at heq
          exact hbehind i hi heq.symm
    | succ i =>
        have hpages := h.pages i (by omega)
        simp only [pageAddr_next, hrest i (by omega), hneeds i (by omega)] at hpages
        exact hpages
  · intro pd' v hout
    rw [h.outside pd' v ?_, hpage, setPage_of_ne]
    · rintro ⟨rfl, rfl⟩
      exact hout ⟨rfl, 0, by omega, h0.symm⟩
    · rintro ⟨rfl, i, hi, rfl⟩
      exact hout ⟨rfl, i + 1, by omega, pageAddr_next⟩
  · intro i hi hne
    cases i with
    | zero =>
        rw [h0] at hne
        exact hfresh hne
    | succ i =>
        have hf := hfresh' i (by omega) hne
        exact ⟨hf.1, fun hmem => hf.2 ((huse _).mpr (Or.inl hmem))⟩
  · intro i hi j hj hne hne' heq
    cases i with
    | zero =>
        cases j with
        | zero => rfl
        | succ j =>
            rw [h0] at hne
            exact absurd ((huse _).mpr (Or.inr ⟨hne, heq⟩)) (hfresh' j (by omega) hne').2
    | succ i =>
        cases j with
        | zero =>
            rw [h0] at hne'
            exact absurd ((huse _).mpr (Or.inr ⟨hne', heq.symm⟩)) (hfresh' i (by omega) hne).2
        | succ j =>
            have hinj := h.distinct i (by omega) j (by omega)
            rw [pageAddr_next, pageAddr_next, hneeds i (by omega), hneeds j (by omega)] at hinj
            rw [hinj hne hne' heq]
  · intro x
    rw [h.inUse, huse]
    constructor
    · rintro ((hx | ⟨hne, rfl⟩) | ⟨i, hi, hne, rfl⟩)
      · exact Or.inl hx
      · exact Or.inr ⟨0, by omega, by rwa [h0], rfl⟩
      · rw [pageAddr_next, hneeds i hi] at hne
        exact Or.inr ⟨i + 1, by omega, hne, rfl⟩
    · rintro (hx | ⟨i, hi, hne, hf⟩)
      · exact Or.inl (Or.inl hx)
      · cases i with
        | zero =>
            rw [h0] at hne
            exact Or.inl (Or.inr ⟨hne, hf⟩)
        | succ i =>
            refine Or.inr ⟨i, by omega, ?_, hf⟩
            rw [pageAddr_next, hneeds i (by omega)]
            exact hne

/-! ### The loops -/

/-- A call of the machine promises what it promises outside. -/
lemma callVirtmem_wp {α : Type} {x : Prog ε σ α} {Q : α → σ → Prop} {E : AsFault ε → Prop}
    (h : Prog.wp x Q (fun _ => False) s) : Prog.wp (callVirtmem x) Q E s := by
  rw [callVirtmem, Prog.wp_zoom]
  exact Prog.wp_mono h (fun _ _ hq => hq) fun _ he => he.elim

/-- Setting the flags is the last call on a page. -/
lemma setFlags_fillPage {x : UserPage} {fresh : Option ℕ} {v : ℕ} :
    (if fails .userSetPageFlags v then
        (if fails .userMapPage v ∨ fresh = none then x else { x with frame := fresh })
      else { (if fails .userMapPage v ∨ fresh = none then x else { x with frame := fresh }) with
        present := true, flags := flags }) = fillPage fails flags v fresh x := rfl

/-- **The loop over fresh frames** fills pages until `localmem` has no frame left. -/
lemma memoryRegionMapAllocate_wp (hc : c.physmemPageSize = 4096) (hstart : start < 2 ^ 32)
    (hn : n ≤ 2 ^ 20) {p : Option ℕ} (hp : p ≠ some 0) :
    Prog.wp (memoryRegionMapAllocate c pd flags n start p)
      (fun r s' => ∃ m fr, m ≤ n ∧ Filled I pd flags start m fr s s' ∧
        (r = .ok () ∧ m = n ∨ r = .error .oom))
      (fun _ => ∃ v, fails .userGetPage v = true) s := by
  induction n generalizing start s p with
  | zero =>
      rw [memoryRegionMapAllocate, Prog.wp_pure]
      exact ⟨0, fun _ => 0, le_rfl, .nil, Or.inl ⟨rfl, rfl⟩⟩
  | succ n ih =>
      -- what is left to do once the flags of the page are to be set
      have hrest : ∀ (f : ℕ) (s₂ : σ) (q : ℕ), q ≠ 0 →
          I.page s₂ = setPage (I.page s) pd start
            (if fails .userMapPage start ∨ (if I.Needs s pd start then some f else none) = none
              then I.page s pd start
              else { I.page s pd start with
                frame := if I.Needs s pd start then some f else none }) →
          (I.Needs s pd start → f ≠ 0 ∧ f ∉ I.inUse s) →
          (∀ x, x ∈ I.inUse s₂ ↔ x ∈ I.inUse s ∨ I.Needs s pd start ∧ f = x) →
          Prog.wp (callVirtmem (c.virtmemUserSetPageFlags pd start flags)) (fun _ s' =>
            Prog.wp (memoryRegionMapAllocate c pd flags n (wrap32 (start + c.physmemPageSize))
              (some q))
              (fun r s' => ∃ m fr, m ≤ n + 1 ∧ Filled I pd flags start m fr s s' ∧
                (r = .ok () ∧ m = n + 1 ∨ r = .error .oom))
              (fun _ => ∃ v, fails .userGetPage v = true) s')
            (fun _ => ∃ v, fails .userGetPage v = true) s₂ := by
        intro f s₂ q hq hpage hfresh huse
        refine Prog.wp_mono (callVirtmem_wp (I.setFlags s₂ pd start flags)) ?_ fun _ he => he
        rintro _ s₃ ⟨hpage₃, huse₃⟩
        rw [hpage, setPage_self, setPage_setPage, setFlags_fillPage] at hpage₃
        rw [hc]
        refine Prog.wp_mono (ih (wrap32_lt _) (by omega) (by simpa using hq)) ?_ fun _ he => he
        rintro r s' ⟨m, fr, hm, hfilled, hr⟩
        refine ⟨m + 1, consFrames f fr, by omega, ?_, ?_⟩
        · exact Filled.cons hstart (by omega) hpage₃ hfresh (by rwa [huse₃]) hfilled
        · rcases hr with ⟨hr, rfl⟩ | hr
          · exact Or.inl ⟨hr, rfl⟩
          · exact Or.inr hr
      rw [memoryRegionMapAllocate, Prog.wp_bind]
      refine Prog.wp_mono (callVirtmem_wp (I.getPage s pd start)) ?_ fun _ he => he
      rintro r s₁ ⟨hr, hpage₁, huse₁⟩
      by_cases hneeds : I.Needs s pd start
      · -- the lookup returned 0
        rw [hneeds.1, if_neg Bool.false_ne_true, hneeds.2] at hr
        simp only [hr, Prog.wp_bind]
        refine Prog.wp_mono (callVirtmem_wp (I.pageAlloc s₁)) ?_ fun _ he => he
        rintro r s₂ ⟨hpage₂, ⟨f, hr, hf, hfree, huse₂⟩ | ⟨⟨e, hr⟩, huse₂⟩⟩
        · simp only [hr, Prog.wp_bind]
          refine Prog.wp_mono (callVirtmem_wp (I.mapPage s₂ pd start f)) ?_ fun _ he => he
          rintro _ s₃ ⟨hpage₃, huse₃⟩
          rw [Prog.wp_bind]
          refine hrest f s₃ f hf ?_ ?_ ?_
          · simp only [hpage₃, hpage₂, hpage₁, if_pos hneeds, reduceCtorEq, or_false]
          · intro _
            rw [huse₁] at hfree
            exact ⟨hf, hfree⟩
          · intro x
            rw [huse₃, huse₂, huse₁, Finset.mem_insert]
            simp only [hneeds, true_and]
            tauto
        · rw [hr, Prog.wp_pure]
          refine ⟨0, fun _ => 0, Nat.zero_le _, ?_, Or.inr rfl⟩
          refine ⟨by simp, fun pd' v _ => ?_, by simp, by simp, fun x => ?_⟩
          · rw [hpage₂, hpage₁]
          · rw [huse₂, huse₁]
            simp
      · -- the lookup failed, or the page has a frame
        have hkept : ∀ q, q ≠ 0 → Prog.wp (callVirtmem (c.virtmemUserSetPageFlags pd start flags))
            _ _ s₁ := fun q hq => hrest 0 s₁ q hq (by
          simp only [if_neg hneeds, or_true, if_true]
          rw [hpage₁]
          funext pd' v'
          by_cases hsame : pd' = pd ∧ v' = start
          · rw [hsame.1, hsame.2, setPage_self]
          · rw [setPage_of_ne hsame]) (fun h => absurd h hneeds) (fun x => by
          rw [huse₁]
          simp [hneeds])
        by_cases hfails : fails .userGetPage start = true
        · rw [hfails, if_pos rfl] at hr
          simp only [hr]
          cases p with
          | none => exact (Prog.wp_fault _).mpr ⟨start, hfails⟩
          | some q =>
              cases q with
              | zero => exact absurd rfl hp
              | succ q =>
                  simp only [Prog.wp_bind]
                  exact hkept (q + 1) (Nat.succ_ne_zero q)
        · have hok : fails .userGetPage start = false := by simpa using hfails
          rw [hok, if_neg Bool.false_ne_true] at hr
          obtain ⟨q, hq⟩ : ∃ q, (I.page s pd start).frame.getD 0 = q + 1 :=
            Nat.exists_eq_succ_of_ne_zero fun h0 => hneeds ⟨hok, h0⟩
          rw [hq] at hr
          simp only [hr, Prog.wp_bind]
          exact hkept (q + 1) (Nat.succ_ne_zero q)

/-- What the loop over given frames does to `n` pages from `start` on, with the frames from `p`
on. -/
structure Entered (I : VirtmemInterface c fails) (pd flags start p n : ℕ) (s s' : σ) : Prop where
  pages : ∀ i < n, I.page s' pd (pageAddr start i) =
    fillPage fails flags (pageAddr start i) (some (pageAddr p i)) (I.page s pd (pageAddr start i))
  outside : ∀ pd' v, ¬(pd' = pd ∧ ∃ i < n, v = pageAddr start i) →
    I.page s' pd' v = I.page s pd' v
  inUse : I.inUse s' = I.inUse s

/-- **The loop over given frames** enters all of them. -/
lemma memoryRegionMapExact_wp (hc : c.physmemPageSize = 4096) (hstart : start < 2 ^ 32) {p : ℕ}
    (hp : p < 2 ^ 32) (hn : n ≤ 2 ^ 20) :
    Prog.wp (memoryRegionMapExact c pd flags n start p)
      (fun r s' => r = .ok () ∧ Entered I pd flags start p n s s') (fun _ => False) s := by
  induction n generalizing start s p with
  | zero =>
      rw [memoryRegionMapExact, Prog.wp_pure]
      exact ⟨rfl, by simp, fun _ _ _ => rfl, rfl⟩
  | succ n ih =>
      rw [memoryRegionMapExact, Prog.wp_bind]
      refine Prog.wp_mono (callVirtmem_wp (I.mapPage s pd start p)) ?_ fun _ he => he
      rintro _ s₁ ⟨hpage₁, huse₁⟩
      rw [Prog.wp_bind]
      refine Prog.wp_mono (callVirtmem_wp (I.setFlags s₁ pd start flags)) ?_ fun _ he => he
      rintro _ s₂ ⟨hpage₂, huse₂⟩
      rw [hpage₁, setPage_self, setPage_setPage] at hpage₂
      rw [hc]
      refine Prog.wp_mono (ih (wrap32_lt _) (wrap32_lt _) (by omega)) ?_ fun _ he => he
      rintro r s' ⟨hr, h⟩
      have h0 := pageAddr_zero hstart
      have hbehind : ∀ i < n, pageAddr start (i + 1) ≠ start := by
        intro i hi heq
        have hzero := pageAddr_inj (i := i + 1) (j := 0) (by omega) (by omega) (heq.trans h0.symm)
        omega
      refine ⟨hr, ?_, ?_, ?_⟩
      · intro i hi
        cases i with
        | zero =>
            rw [h0, h.outside pd start ?_, hpage₂, setPage_self, pageAddr_zero hp]
            · simp only [fillPage, reduceCtorEq, or_false]
            · rintro ⟨-, i, hi, heq⟩
              rw [pageAddr_next] at heq
              exact hbehind i hi heq.symm
        | succ i =>
            have hpages := h.pages i (by omega)
            rw [pageAddr_next, pageAddr_next, hpage₂, setPage_of_ne] at hpages
            · exact hpages
            · rintro ⟨-, heq⟩
              exact hbehind i (by omega) heq
      · intro pd' v hout
        rw [h.outside pd' v ?_, hpage₂, setPage_of_ne]
        · rintro ⟨rfl, rfl⟩
          exact hout ⟨rfl, 0, by omega, h0.symm⟩
        · rintro ⟨rfl, i, hi, rfl⟩
          exact hout ⟨rfl, i + 1, by omega, pageAddr_next⟩
      · rw [h.inUse, huse₂, huse₁]

/-! ### The whole call -/

variable {as : AddressSpace} {mr : MemoryRegion} {p : ℕ}

/-- The region and the frame are aligned where the call returns. -/
lemma commonMemoryRegionMap_aligned {r : Except AddressSpaceErr Unit × σ}
    (hc : c.physmemPageSize = 4096) (hrun : (commonMemoryRegionMap c as mr p).run s = .ok r) :
    mr.start % 4096 = 0 ∧ mr.length % 4096 = 0 ∧ (p = 0 ∨ p % 4096 = 0) := by
  rw [commonMemoryRegionMap, hc] at hrun
  rcases Prog.assert_of_run hrun with ⟨hs, hrun⟩
  rcases Prog.assert_of_run hrun with ⟨hl, hrun⟩
  exact ⟨hs, hl, (Prog.assert_of_run hrun).1⟩

/-- An aligned region is mapped by one of the loops. -/
lemma commonMemoryRegionMap_of_aligned (hc : c.physmemPageSize = 4096) (hs : mr.start % 4096 = 0)
    (hl : mr.length % 4096 = 0) (hp : p = 0 ∨ p % 4096 = 0) :
    commonMemoryRegionMap c as mr p =
      if p = 0 then
        memoryRegionMapAllocate c as.pd (regionPageFlags mr) (mr.length / 4096) mr.start none
      else memoryRegionMapExact c as.pd (regionPageFlags mr) (mr.length / 4096) mr.start p := by
  rw [commonMemoryRegionMap, hc, Prog.assert_bind hs, Prog.assert_bind hl, Prog.assert_bind hp]

end Loops

/-! ## Calls that fail -/

/-- A page is mapped with the flags. -/
def MappedWith (flags : ℕ) (x : UserPage) : Prop :=
  x.frame ≠ none ∧ x.present = true ∧ x.flags = flags

section Failing

variable {c : Cpu ε σ} {fails : VirtmemCall → ℕ → Bool} {I : VirtmemInterface c fails}
  {as : AddressSpace} {mr : MemoryRegion} {paddr pd flags start n : ℕ} {s s' : σ}

/-- What success is to mean: every page of the region is mapped with the flags, and no page became
present that has no frame. -/
def AllMapped (I : VirtmemInterface c fails) (pd flags start n : ℕ) (s s' : σ) : Prop :=
  (∀ i < n, MappedWith flags (I.page s' pd (pageAddr start i))) ∧
    ∀ pd' v, (I.page s pd' v).present = false → (I.page s' pd' v).present = true →
      (I.page s' pd' v).frame ≠ none

/-- No call fails at `v` that the page needs: it has a frame, or is looked up and mapped, and it
has the flags, or they are set. -/
def NeedsNoFailing (fails : VirtmemCall → ℕ → Bool) (flags paddr v : ℕ) (x : UserPage) : Prop :=
  (x.frame ≠ none ∨ fails .userMapPage v = false ∧ (paddr = 0 → fails .userGetPage v = false)) ∧
    (fails .userSetPageFlags v = false ∨ x.present = true ∧ x.flags = flags)

lemma mappedWith_fillPage {v : ℕ} {fresh : Option ℕ} {x : UserPage} :
    MappedWith flags (fillPage fails flags v fresh x) ↔
      (x.frame ≠ none ∨ fails .userMapPage v = false ∧ fresh ≠ none) ∧
        (fails .userSetPageFlags v = false ∨ x.present = true ∧ x.flags = flags) := by
  unfold MappedWith fillPage
  cases fails .userMapPage v <;> cases fails .userSetPageFlags v <;> cases fresh <;> simp

/-- Where only the pages of the region change, mapped pages are all that success means. -/
lemma allMapped_iff (hout : ∀ pd' v, ¬(pd' = pd ∧ ∃ i < n, v = pageAddr start i) →
    I.page s' pd' v = I.page s pd' v) :
    AllMapped I pd flags start n s s' ↔
      ∀ i < n, MappedWith flags (I.page s' pd (pageAddr start i)) := by
  refine ⟨fun h => h.1, fun h => ⟨h, ?_⟩⟩
  intro pd' v hbefore hafter
  by_cases hin : pd' = pd ∧ ∃ i < n, v = pageAddr start i
  · rcases hin with ⟨rfl, i, hi, rfl⟩
    exact (h i hi).1
  · rw [hout pd' v hin, hbefore] at hafter
    exact absurd hafter Bool.false_ne_true

/-- **Success means mapped exactly when no needed call failed.**  None of the calls of the loops has
its result looked at: a page that could not be mapped stays without a frame, and is marked present
all the same, and one whose lookup failed is taken for the page before it. -/
theorem success_means_mapped_iff (hc : c.physmemPageSize = 4096) (hstart : mr.start < 2 ^ 32)
    (hlen : mr.length < 2 ^ 32) (hp : paddr < 2 ^ 32)
    (hrun : (commonMemoryRegionMap c as mr paddr).run s = .ok (.ok (), s')) :
    AllMapped I as.pd (regionPageFlags mr) mr.start (mr.length / 4096) s s' ↔
      ∀ i < mr.length / 4096, NeedsNoFailing fails (regionPageFlags mr) paddr
        (pageAddr mr.start i) (I.page s as.pd (pageAddr mr.start i)) := by
  have haligned := commonMemoryRegionMap_aligned hc hrun
  rw [commonMemoryRegionMap_of_aligned hc haligned.1 haligned.2.1 haligned.2.2] at hrun
  have hn : mr.length / 4096 ≤ 2 ^ 20 := by omega
  by_cases hzero : paddr = 0
  · rw [if_pos hzero] at hrun
    have hwp := Prog.wp_run (memoryRegionMapAllocate_wp (I := I) hc hstart hn (by simp)) hrun
    rcases hwp with ⟨m, fr, -, hfilled, ⟨-, rfl⟩ | hr⟩
    · rw [allMapped_iff hfilled.outside]
      refine forall₂_congr fun i hi => ?_
      rw [hfilled.pages i hi, mappedWith_fillPage, NeedsNoFailing]
      cases hframe : (I.page s as.pd (pageAddr mr.start i)).frame with
      | none => simp [VirtmemInterface.Needs, hframe, hzero]
      | some f => simp
    · exact absurd hr (by simp)
  · rw [if_neg hzero] at hrun
    have hwp := Prog.wp_run (memoryRegionMapExact_wp (I := I) hc hstart hp hn) hrun
    rw [allMapped_iff hwp.2.outside]
    refine forall₂_congr fun i hi => ?_
    rw [hwp.2.pages i hi, mappedWith_fillPage, NeedsNoFailing]
    simp [hzero]

end Failing

/-! ### A machine of the interface -/

/-- Contexts and frames as plain data; `limit` is the number of frames there are. -/
structure PlainPages where
  page : ℕ → ℕ → UserPage
  inUse : Finset ℕ
  limit : ℕ

/-- Nothing mapped, and `limit` frames free. -/
def noPages (limit : ℕ) : PlainPages where
  page _ _ := ⟨none, false, 0⟩
  inUse := ∅
  limit := limit

/-- A machine whose calls fail on a schedule. -/
def scheduled (fails : VirtmemCall → ℕ → Bool) : Cpu Empty PlainPages where
  physmemPageSize := 4096
  physmemPageSize_lt := fourKiB_lt
  physmemPageAlloc := do
    let s ← Prog.gets id
    if s.inUse.card < s.limit then
      Prog.update fun s => { s with inUse := insert (s.inUse.sup id + 4096) s.inUse }
      return .ok (s.inUse.sup id + 4096)
    else
      return .error .oom
  physmemPageFree f := do
    Prog.update fun s => { s with inUse := s.inUse.erase f }
    return .ok ()
  virtmemKernelAlloc _ := pure (.error .oom)
  virtmemKernelFree _ := pure (.ok ())
  virtmemKernelMapVirtToPhys _ _ := pure (.ok ())
  virtmemUserGetPage pd v :=
    if fails .userGetPage v then return .error .oom
    else Prog.gets fun s => .ok ((s.page pd v).frame.getD 0)
  virtmemUserMapPage pd v p :=
    if fails .userMapPage v then return .error .oom
    else do
      Prog.update fun s => { s with
        page := setPage s.page pd v { s.page pd v with frame := some p } }
      return .ok ()
  virtmemUserSetPageFlags pd v flags :=
    if fails .userSetPageFlags v then return .error .oom
    else do
      Prog.update fun s => { s with
        page := setPage s.page pd v { s.page pd v with present := true, flags := flags } }
      return .ok ()
  virtmemUserSetupKernelspace _ := pure (.ok ())
  memset _ _ _ := pure ()
  memcpy _ _ _ := pure ()

lemma setPage_same (pages : ℕ → ℕ → UserPage) (pd v : ℕ) :
    setPage pages pd v (pages pd v) = pages := by
  funext pd' v'
  by_cases h : pd' = pd ∧ v' = v
  · rw [h.1, h.2, setPage_self]
  · rw [setPage_of_ne h]

section Scheduled

variable (fails : VirtmemCall → ℕ → Bool) (s : PlainPages) (pd v : ℕ)

lemma scheduled_getPage : Prog.wp ((scheduled fails).virtmemUserGetPage pd v)
    (fun r s' => r = (if fails .userGetPage v then .error .oom
        else .ok ((s.page pd v).frame.getD 0)) ∧
      s'.page = s.page ∧ s'.inUse = s.inUse) (fun _ => False) s := by
  by_cases h : fails .userGetPage v = true
  · simp only [scheduled, if_pos h, Prog.wp_pure, and_self]
  · simp only [scheduled, if_neg h, Prog.wp_gets, and_self]

lemma scheduled_mapPage (p : ℕ) : Prog.wp ((scheduled fails).virtmemUserMapPage pd v p)
    (fun _ s' => s'.page = setPage s.page pd v (if fails .userMapPage v then s.page pd v
        else { s.page pd v with frame := some p }) ∧
      s'.inUse = s.inUse) (fun _ => False) s := by
  by_cases h : fails .userMapPage v = true
  · simp only [scheduled, if_pos h, Prog.wp_pure, setPage_same, and_self]
  · simp only [scheduled, if_neg h, Prog.wp_bind, Prog.wp_update, Prog.wp_pure, and_self]

lemma scheduled_setFlags (flags : ℕ) :
    Prog.wp ((scheduled fails).virtmemUserSetPageFlags pd v flags)
    (fun _ s' => s'.page = setPage s.page pd v (if fails .userSetPageFlags v then s.page pd v
        else { s.page pd v with present := true, flags := flags }) ∧
      s'.inUse = s.inUse) (fun _ => False) s := by
  by_cases h : fails .userSetPageFlags v = true
  · simp only [scheduled, if_pos h, Prog.wp_pure, setPage_same, and_self]
  · simp only [scheduled, if_neg h, Prog.wp_bind, Prog.wp_update, Prog.wp_pure, and_self]

/-- The frame it hands out is above all frames in use. -/
lemma scheduled_pageAlloc : Prog.wp (scheduled fails).physmemPageAlloc
    (fun r s' => s'.page = s.page ∧
      ((∃ p, r = .ok p ∧ p ≠ 0 ∧ p ∉ s.inUse ∧ s'.inUse = insert p s.inUse) ∨
        ((∃ e, r = .error e) ∧ s'.inUse = s.inUse))) (fun _ => False) s := by
  have hfresh : s.inUse.sup id + 4096 ∉ s.inUse := by
    intro hmem
    have hle : s.inUse.sup id + 4096 ≤ s.inUse.sup id := Finset.le_sup (f := id) hmem
    omega
  simp only [scheduled, Prog.wp_bind, Prog.wp_gets, id]
  by_cases h : s.inUse.card < s.limit
  · rw [if_pos h]
    simp only [Prog.wp_bind, Prog.wp_update, Prog.wp_pure]
    exact ⟨trivial, Or.inl ⟨_, rfl, by omega, hfresh, rfl⟩⟩
  · rw [if_neg h, Prog.wp_pure]
    exact ⟨rfl, Or.inr ⟨⟨_, rfl⟩, rfl⟩⟩

lemma scheduled_pageFree (f : ℕ) : Prog.wp ((scheduled fails).physmemPageFree f)
    (fun _ s' => s'.page = s.page ∧ s'.inUse = s.inUse.erase f) (fun _ => False) s := by
  simp only [scheduled, Prog.wp_bind, Prog.wp_update, Prog.wp_pure, and_self]

end Scheduled

/-- **It keeps the promises**, whatever the schedule. -/
def scheduledInterface (fails : VirtmemCall → ℕ → Bool) :
    VirtmemInterface (scheduled fails) fails where
  page := PlainPages.page
  inUse := PlainPages.inUse
  getPage := scheduled_getPage fails
  mapPage := scheduled_mapPage fails
  setFlags := scheduled_setFlags fails
  pageAlloc := scheduled_pageAlloc fails
  pageFree := scheduled_pageFree fails

/-- The context and the region of the runs below. -/
def onePage : MemoryRegion := ⟨4096, 4096, true, false⟩

/-- With enough frames and no failing call, a page is mapped. -/
theorem success_means_mapped_one : ∃ s', AllMapped (scheduledInterface fun _ _ => false) 8192
    (regionPageFlags onePage) 4096 1 (noPages 1) s' :=
  have hrun : (commonMemoryRegionMap (scheduled fun _ _ => false) ⟨8192, []⟩ onePage 0).run
      (noPages 1) = .ok (.ok (), _) := Prog.run_after (a := Except.ok ()) (by decide +kernel)
  ⟨_, (success_means_mapped_iff (I := scheduledInterface fun _ _ => false) rfl (by decide)
    (by decide) (by decide) hrun).mpr fun _ _ => ⟨Or.inr ⟨rfl, fun _ => rfl⟩, Or.inl rfl⟩⟩

/-- **A page that could not be mapped is present**, and the call succeeds. -/
theorem unmapped_page_is_present : ∃ s',
    (commonMemoryRegionMap (scheduled fun call _ => call = .userMapPage) ⟨8192, []⟩ onePage 0).run
      (noPages 1) = .ok (.ok (), s') ∧
    ¬AllMapped (scheduledInterface fun call _ => call = .userMapPage) 8192
      (regionPageFlags onePage) 4096 1 (noPages 1) s' := by
  refine ⟨_, Prog.run_after (a := Except.ok ()) (by decide +kernel), ?_⟩
  rintro ⟨hmapped, -⟩
  exact (hmapped 0 Nat.one_pos).1 (by decide +kernel)

end Akaris
