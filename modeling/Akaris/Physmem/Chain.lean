import Akaris.Physmem.Transparency

/-!
# Feeders over feeders

`feeder_physmem_create` takes any `struct physmem *` as the source, so feeders can be stacked, and
the conversions `feeder_physmem_phys_to_page` and `feeder_physmem_page_to_phys` go down such a chain
to the source at its bottom.  Allocation and free do not: a feeder runs its source's function *on
itself*, and when the source is a feeder that function is the one it is already in.

The first two managers of a chain are a source and a feeder over it, which conserve their pages
between them whatever is stacked on top (`ChainInv`).  A feeder further up never holds a page as
long as calls return: `secondFeeder_stuck` says what happens to one that gets hold of a page, and
`feeder_free_stuck` what happens to one that is given a page back and keeps it.  So a call returns
when every feeder on its way down passes it on, and **`feeders_compose_iff`** says that this is the
only way.

The depth of nested calls is the bound of `pageAlloc` and `pageFree`; a call that returns at no
depth is one that calls itself without end, or one that stops on the way.
-/

namespace Akaris

open BsdList Prog

/-! ## Calls do not look at the count -/

namespace Managers

/-- The managers, of which only the first `n` are looked at. -/
def setCount (n : ℕ) (s : Managers) : Managers := { s with count := n }

@[simp] lemma setCount_count (n : ℕ) (s : Managers) : (s.setCount n).count = n := rfl
@[simp] lemma setCount_mgr (n : ℕ) (s : Managers) : (s.setCount n).mgr = s.mgr := rfl
lemma setCount_self {n : ℕ} {s : Managers} (h : n = s.count) : s.setCount n = s := by
  subst h
  rfl

@[simp] lemma setCount_links (n : ℕ) (s : Managers) : (s.setCount n).links = s.links := rfl

end Managers

section Ignores

variable (T : PageTable) (n : ℕ)

lemma physmemPhysToPage_ignores (d : ℕ) :
    ∀ m addr, Ignores (Managers.setCount n) (physmemPhysToPage T d m addr) := by
  induction d with
  | zero => exact fun _ _ => .fault _
  | succ d ih =>
      intro m addr
      refine .bind (.gets fun _ => rfl) fun p => ?_
      cases p.v with
      | common => exact .pure _
      | feeder f => exact ih _ _

lemma physmemPageToPhys_ignores (d : ℕ) :
    ∀ m page, Ignores (Managers.setCount n) (physmemPageToPhys T d m page) := by
  induction d with
  | zero => exact fun _ _ => .fault _
  | succ d ih =>
      intro m page
      refine .bind (.gets fun _ => rfl) fun p => ?_
      cases p.v with
      | common => exact .pure _
      | feeder f => exact ih _ _

lemma commonPhysmemPageAlloc_ignores (d m : ℕ) :
    Ignores (Managers.setCount n) (commonPhysmemPageAlloc T d m) := by
  refine .bind (.gets fun _ => rfl) fun phys => .ite (.pure _) ?_
  refine .bind (.update fun _ => rfl) fun _ => .bind (.gets fun _ => rfl) fun first => ?_
  cases first with
  | none => exact .fault _
  | some newpage =>
      refine .bind (.update fun _ => rfl) fun _ => ?_
      exact .bind (physmemPageToPhys_ignores T n d m newpage) fun _ => .pure _

lemma asFeeder_ignores (m : ℕ) : Ignores (Managers.setCount n) (asFeeder m) := by
  refine .bind (.gets fun _ => rfl) fun p => ?_
  cases p.v with
  | common => exact .fault _
  | feeder f => exact .pure _

variable {call : Vfuncs → ℕ → PhysmemProg (Except PhysmemError ℕ)}

lemma feederRefill_ignores (hcall : ∀ v m, Ignores (Managers.setCount n) (call v m)) (d m : ℕ)
    (f : FeederPhysmem) (xfer : ℕ) :
    ∀ newaddr, Ignores (Managers.setCount n) (feederRefill T call d m f xfer newaddr) := by
  induction xfer with
  | zero => exact fun _ => .pure _
  | succ xfer ih =>
      intro newaddr
      refine .bind (.gets fun _ => rfl) fun source => .ite (.pure _) ?_
      refine .bind (hcall _ _) fun res => ?_
      dsimp only
      split
      · exact .fault _
      · refine .bind (physmemPhysToPage_ignores T n d _ _) fun newpage => ?_
        refine .bind (.update fun _ => rfl) fun _ => .bind (.gets fun _ => rfl) fun p => ?_
        exact .bind (.update fun _ => rfl) fun _ => ih _

lemma feederPhysmemPageAlloc_ignores (hcall : ∀ v m, Ignores (Managers.setCount n) (call v m))
    (d m : ℕ) : Ignores (Managers.setCount n) (feederPhysmemPageAlloc T call d m) := by
  refine .bind (asFeeder_ignores n m) fun f => .bind (.gets fun _ => rfl) fun p => ?_
  have htail : Ignores (Managers.setCount n) (do
      let p ← getMgr m
      let source ← getMgr f.source
      if 0 < p.freePages then call source.v m else call source.v f.source) :=
    .bind (.gets fun _ => rfl) fun p => .bind (.gets fun _ => rfl) fun source =>
      .ite (hcall _ _) (hcall _ _)
  exact .ite (.bind (feederRefill_ignores T n hcall d m f _ _) fun _ => htail) htail

lemma pageAlloc_ignores (d : ℕ) :
    ∀ v m, Ignores (Managers.setCount n) (pageAlloc T d v m) := by
  induction d with
  | zero => exact fun _ _ => .fault _
  | succ d ih =>
      intro v m
      cases v with
      | common => exact commonPhysmemPageAlloc_ignores T n d m
      | feeder f => exact feederPhysmemPageAlloc_ignores T n ih d m

lemma commonPhysmemPageFree_ignores (d m addr : ℕ) :
    Ignores (Managers.setCount n) (commonPhysmemPageFree T d m addr) := by
  refine .bind (physmemPhysToPage_ignores T n d m addr) fun page => ?_
  refine .bind (.update fun _ => rfl) fun _ => .bind (.gets fun _ => rfl) fun phys => ?_
  exact .bind (.update fun _ => rfl) fun _ => .pure _

lemma feederPhysmemPageFree_ignores
    {call : Vfuncs → ℕ → ℕ → PhysmemProg (Except PhysmemError Unit)}
    (hcall : ∀ v m addr, Ignores (Managers.setCount n) (call v m addr)) (m addr : ℕ) :
    Ignores (Managers.setCount n) (feederPhysmemPageFree call m addr) := by
  refine .bind (asFeeder_ignores n m) fun f => .bind (.gets fun _ => rfl) fun source => ?_
  exact .ite (.bind (hcall _ _ _) fun _ => .pure _) (.bind (hcall _ _ _) fun _ => .pure _)

lemma pageFree_ignores (d : ℕ) :
    ∀ v m addr, Ignores (Managers.setCount n) (pageFree T d v m addr) := by
  induction d with
  | zero => exact fun _ _ _ => .fault _
  | succ d ih =>
      intro v m addr
      cases v with
      | common => exact commonPhysmemPageFree_ignores T n d m addr
      | feeder f => exact feederPhysmemPageFree_ignores n ih m addr

/-- **An allocation does not look at how many managers there are**, nor does a free. -/
lemma physmemPageAlloc_ignores (d m : ℕ) :
    Ignores (Managers.setCount n) (physmemPageAlloc T d m) :=
  .bind (.gets fun _ => rfl) fun p => pageAlloc_ignores T n d p.v m

lemma physmemPageFree_ignores (d m addr : ℕ) :
    Ignores (Managers.setCount n) (physmemPageFree T d m addr) :=
  .bind (.gets fun _ => rfl) fun p => pageFree_ignores T n d p.v m addr

/-- A run with the wrong count is a run with the right one. -/
lemma run_of_setCount {α : Type} {x : PhysmemProg α} {s s₁ : Managers} {a : α}
    (hx : Ignores (Managers.setCount s.count) x) (hrun : x.run (s.setCount n) = .ok (a, s₁)) :
    x.run s = .ok (a, s₁.setCount s.count) := by
  have h := hx (s.setCount n)
  rw [hrun] at h
  exact h

/-- A run that returned returns with any count, and keeps the count it has. -/
lemma setCount_run {α : Type} {x : PhysmemProg α} {s s' : Managers} {a : α}
    (hx : ∀ n, Ignores (Managers.setCount n) x) (hrun : x.run s = .ok (a, s')) :
    x.run (s.setCount n) = .ok (a, s'.setCount n) ∧ s'.count = s.count := by
  have h := hx n s
  have hsame := hx s.count s
  rw [hrun] at h hsame
  refine ⟨h, ?_⟩
  have hself : x.run (s.setCount s.count) = .ok (a, s') := hrun
  rw [hself] at hsame
  have hs' : s' = s'.setCount s.count := congrArg Prod.snd (Except.ok.inj hsame)
  rw [hs']
  rfl

end Ignores

/-! ## What a call leaves alone -/

/-- The managers from the second feeder on, and all function tables, are as before. -/
structure SameAbove (s s' : Managers) : Prop where
  mgr : ∀ k, 2 ≤ k → s'.mgr k = s.mgr k
  v : ∀ j, (s'.mgr j).v = (s.mgr j).v

/-- Manager 0 is a common physmem and manager 1 a feeder over it. -/
structure LowPair (s : Managers) : Prop where
  source : (s.mgr 0).v = .common
  feeder : ∃ f, (s.mgr 1).v = .feeder f ∧ f.source = 0

section Frames

variable {T : PageTable} {s s' s'' : Managers} {m d : ℕ}

lemma SameAbove.refl (s : Managers) : SameAbove s s := ⟨fun _ _ => rfl, fun _ => rfl⟩

lemma SameAbove.trans (h : SameAbove s s') (h' : SameAbove s' s'') : SameAbove s s'' :=
  ⟨fun k hk => (h'.mgr k hk).trans (h.mgr k hk), fun j => (h'.v j).trans (h.v j)⟩

/-- Changing the counters of one of the two lowest managers. -/
lemma SameAbove.set (hm : m < 2) (s : Managers) (links : Links ℕ ℕ) {p : Physmem}
    (hp : p.v = (s.mgr m).v) : SameAbove s ((s.setMgr m p).setLinks links) := by
  constructor
  · intro k hk
    have hne : k ≠ m := by omega
    simp [Function.update_of_ne hne]
  · intro j
    by_cases hj : j = m
    · subst hj
      simp [hp]
    · simp [Function.update_of_ne hj]

lemma LowPair.of_v (h : LowPair s) (hv : ∀ j, (s'.mgr j).v = (s.mgr j).v) : LowPair s' := by
  rcases h.feeder with ⟨f, hf, hsrc⟩
  exact ⟨(hv 0).trans h.source, f, (hv 1).trans hf, hsrc⟩

lemma physmemPageToPhys_same (T : PageTable) (s : Managers) (d : ℕ) :
    ∀ m page, wp (physmemPageToPhys T d m page) (fun _ s' => s' = s) (fun _ => True) s := by
  induction d with
  | zero => exact fun _ _ => trivial
  | succ d ih =>
      intro m page
      simp only [physmemPageToPhys, getMgr, wp_bind, wp_gets]
      split
      · rfl
      · exact ih _ _

lemma physmemPhysToPage_same (T : PageTable) (s : Managers) (d : ℕ) :
    ∀ m addr, wp (physmemPhysToPage T d m addr) (fun _ s' => s' = s) (fun _ => True) s := by
  induction d with
  | zero => exact fun _ _ => trivial
  | succ d ih =>
      intro m addr
      simp only [physmemPhysToPage, getMgr, wp_bind, wp_gets]
      split
      · rfl
      · exact ih _ _

lemma commonPhysmemPageAlloc_same (T : PageTable) (hm : m < 2) (d : ℕ) (s : Managers) :
    wp (commonPhysmemPageAlloc T d m) (fun _ s' => SameAbove s s') (fun _ => True) s := by
  simp only [commonPhysmemPageAlloc, getMgr, wp_bind, wp_gets]
  split
  · exact SameAbove.refl s
  · simp only [wp_bind, wp_update, wp_gets]
    split
    · trivial
    · simp only [wp_bind, wp_update]
      refine wp_mono (physmemPageToPhys_same T _ d m _) ?_ fun _ _ => trivial
      rintro _ _ rfl
      exact SameAbove.set hm s _ rfl

/-- A call that leaves the upper managers alone, on a source and on the feeder over it. -/
def CallSame (call : Vfuncs → ℕ → PhysmemProg (Except PhysmemError ℕ)) : Prop :=
  ∀ m < 2, ∀ s, wp (call .common m) (fun _ s' => SameAbove s s') (fun _ => True) s

lemma pageAlloc_common_same (T : PageTable) (d : ℕ) : CallSame (pageAlloc T d) := by
  intro m hm s
  cases d with
  | zero => trivial
  | succ d => exact commonPhysmemPageAlloc_same T hm d s

lemma feederRefill_same {call : Vfuncs → ℕ → PhysmemProg (Except PhysmemError ℕ)}
    (hcall : CallSame call) {f : FeederPhysmem} (hsrc : f.source = 0) (d n : ℕ) :
    ∀ s newaddr, (s.mgr 0).v = .common →
      wp (feederRefill T call d 1 f n newaddr) (fun _ s' => SameAbove s s') (fun _ => True) s := by
  induction n with
  | zero => exact fun s _ _ => SameAbove.refl s
  | succ n ih =>
      intro s newaddr hroot
      simp only [feederRefill, getMgr, wp_bind, wp_gets]
      split
      · exact SameAbove.refl s
      · rw [hsrc, hroot]
        simp only [wp_bind]
        refine wp_mono (hcall 0 (by decide) s) ?_ fun _ _ => trivial
        intro res s₁ h₁
        split
        · trivial
        · simp only [wp_bind]
          refine wp_mono (physmemPhysToPage_same T s₁ d 0 _) ?_ fun _ _ => trivial
          intro newpage s₂ hs₂
          rw [hs₂]
          simp only [wp_bind, wp_update, wp_gets]
          have h₂ := h₁.trans (SameAbove.set (m := 1) (by decide) s₁ (s₁.links.insertHead 1 newpage)
            (p := { s₁.mgr 1 with
              freePages := wrap32 ((s₁.mgr 1).freePages + 1)
              totalPages := wrap32 ((s₁.mgr 1).totalPages + 1) }) rfl)
          refine wp_mono (ih _ _ ((h₂.v 0).trans hroot)) ?_ fun _ _ => trivial
          intro _ s₃ h₃
          exact h₂.trans h₃

/-- **An allocation through one of the two lowest managers** leaves the ones above alone. -/
lemma pageAlloc_same (T : PageTable) (h : LowPair s) (d : ℕ) (g : FeederPhysmem) :
    wp (pageAlloc T d (.feeder g) 1) (fun _ s' => SameAbove s s') (fun _ => True) s := by
  rcases h.feeder with ⟨f, hf, hsrc⟩
  cases d with
  | zero => trivial
  | succ d =>
      have hcall := pageAlloc_common_same T d
      have htail : ∀ s₁, SameAbove s s₁ → wp (do
          let p ← getMgr 1
          let source ← getMgr f.source
          if 0 < p.freePages then pageAlloc T d source.v 1 else pageAlloc T d source.v f.source)
          (fun _ s' => SameAbove s s') (fun _ => True) s₁ := by
        intro s₁ h₁
        have hroot : (s₁.mgr 0).v = .common := (h₁.v 0).trans h.source
        simp only [getMgr, wp_bind, wp_gets, hsrc, hroot]
        split
        · exact wp_mono (hcall 1 (by decide) s₁) (fun _ _ h₂ => h₁.trans h₂) fun _ _ => trivial
        · exact wp_mono (hcall 0 (by decide) s₁) (fun _ _ h₂ => h₁.trans h₂) fun _ _ => trivial
      simp only [pageAlloc, feederPhysmemPageAlloc]
      rw [wp_bind, wp_of_run (asFeeder_run hf), wp_bind]
      simp only [getMgr, wp_gets]
      split
      · rw [wp_bind]
        refine wp_mono (feederRefill_same hcall hsrc d _ s none h.source) ?_ fun _ _ => trivial
        intro _ s₁ h₁
        exact htail s₁ h₁
      · exact htail s (SameAbove.refl s)

end Frames

/-! ## A feeder over a feeder -/

/-- A feeder that does not stock up: it keeps no page, or its source is down to the reserve. -/
def Quiet (s : Managers) (f : FeederPhysmem) : Prop :=
  wrap32 (f.pagesToKeep + 1) = 0 ∨ (s.mgr f.source).freePages ≤ f.minFreeSourcePages

section Nested

variable {T : PageTable} {s : Managers} {f : FeederPhysmem} {i : ℕ}

/-- The second feeder's refill gains pages when there is something to gain. -/
lemma feederRefill_gains (hsrc : f.source = 1) (d e n : ℕ) :
    ∀ s newaddr, LowPair s → (s.mgr 2).freePages + n < 2 ^ 32 →
      wp (feederRefill T (pageAlloc T d) e 2 f n newaddr)
        (fun _ s' => (∀ j, (s'.mgr j).v = (s.mgr j).v) ∧
          (s.mgr 2).freePages ≤ (s'.mgr 2).freePages ∧
          (n ≠ 0 → f.minFreeSourcePages < (s.mgr 1).freePages →
            (s.mgr 2).freePages < (s'.mgr 2).freePages))
        (fun _ => True) s := by
  induction n with
  | zero => exact fun s _ _ _ => ⟨fun _ => rfl, le_rfl, fun h => absurd rfl h⟩
  | succ n ih =>
      intro s newaddr hlow hsmall
      rcases hlow.feeder with ⟨f₁, hf₁, -⟩
      simp only [feederRefill, getMgr, wp_bind, wp_gets, hsrc, hf₁]
      split
      · next hstop => exact ⟨fun _ => rfl, le_rfl, fun _ hgo => absurd hgo (Nat.not_lt.mpr hstop)⟩
      · simp only [wp_bind]
        refine wp_mono (pageAlloc_same T hlow d f₁) ?_ fun _ _ => trivial
        intro res s₁ h₁
        split
        · trivial
        · simp only [wp_bind]
          refine wp_mono (physmemPhysToPage_same T s₁ e 1 _) ?_ fun _ _ => trivial
          intro newpage s₂ hs₂
          rw [hs₂]
          simp only [wp_bind, wp_update, wp_gets]
          -- the page is counted, and the count does not wrap
          have hcount : wrap32 ((s₁.mgr 2).freePages + 1) = (s.mgr 2).freePages + 1 := by
            rw [h₁.mgr 2 le_rfl]
            exact wrap32_of_lt (by omega)
          set s₃ := (s₁.setLinks (s₁.links.insertHead 2 newpage)).setMgr 2
            { s₁.mgr 2 with
              freePages := wrap32 ((s₁.mgr 2).freePages + 1)
              totalPages := wrap32 ((s₁.mgr 2).totalPages + 1) } with hs₃
          have hfree₃ : (s₃.mgr 2).freePages = (s.mgr 2).freePages + 1 := by
            rw [hs₃]
            simpa using hcount
          have hv₃ : ∀ j, (s₃.mgr j).v = (s.mgr j).v := by
            intro j
            rw [← h₁.v j, hs₃]
            by_cases hj : j = 2
            · subst hj
              simp
            · simp [Function.update_of_ne hj]
          refine wp_mono (ih s₃ _ (hlow.of_v hv₃) (by omega)) ?_ fun _ _ => trivial
          rintro _ s₄ ⟨hv₄, hle, -⟩
          refine ⟨fun j => (hv₄ j).trans (hv₃ j), ?_, fun _ _ => ?_⟩ <;> omega

/-- What the refill loop is asked for. -/
lemma refill_request {keep n : ℕ} (hshort : n < wrap32 (keep + 1)) :
    wrap32 (sub32 keep n + 1) = wrap32 (keep + 1) - n := by
  unfold sub32
  unfold wrap32 at hshort ⊢
  omega

/-- **The second feeder does not return** from an allocation once it has a page, or gets one: it
calls its source's function on itself, and that is the function it is in. -/
lemma secondFeeder_stuck (hsrc : f.source = 1) (d : ℕ) :
    ∀ s g, LowPair s → (s.mgr 2).v = .feeder f →
      (0 < (s.mgr 2).freePages ∨ ((s.mgr 2).freePages = 0 ∧ ¬Quiet s f)) →
      wp (pageAlloc T d (.feeder g) 2) (fun _ _ => False) (fun _ => True) s := by
  induction d with
  | zero => exact fun _ _ _ _ _ => trivial
  | succ d ih =>
      intro s g hlow hf hpage
      have htail : ∀ s₁, LowPair s₁ → (s₁.mgr 2).v = .feeder f → 0 < (s₁.mgr 2).freePages →
          wp (do
            let p ← getMgr 2
            let source ← getMgr f.source
            if 0 < p.freePages then pageAlloc T d source.v 2 else pageAlloc T d source.v f.source)
            (fun _ _ => False) (fun _ => True) s₁ := by
        intro s₁ hlow₁ hf₁ hpos
        rcases hlow₁.feeder with ⟨f₁, hv₁, -⟩
        simp only [getMgr, wp_bind, wp_gets, hsrc, hv₁, hpos, if_true]
        exact ih s₁ f₁ hlow₁ hf₁ (Or.inl hpos)
      simp only [pageAlloc, feederPhysmemPageAlloc]
      rw [wp_bind, wp_of_run (asFeeder_run hf), wp_bind]
      simp only [getMgr, wp_gets]
      split
      · next hshort =>
          have hwrap := wrap32_lt (f.pagesToKeep + 1)
          rw [wp_bind, refill_request hshort]
          have hgains := feederRefill_gains (T := T) hsrc d d (wrap32 (f.pagesToKeep + 1) -
            (s.mgr 2).freePages) s none hlow (by omega)
          refine wp_mono hgains ?_ fun _ _ => trivial
          rintro _ s₁ ⟨hv, hle, hlt⟩
          refine htail s₁ (hlow.of_v hv) ((hv 2).trans hf) ?_
          rcases hpage with hpos | ⟨hzero, hloud⟩
          · omega
          · have hgo : f.minFreeSourcePages < (s.mgr 1).freePages := by
              rw [Quiet, not_or, hsrc] at hloud
              exact Nat.lt_of_not_le hloud.2
            have hgain := hlt (by omega) hgo
            omega
      · next hlong =>
          refine htail s hlow hf ?_
          rcases hpage with hpos | ⟨hzero, hloud⟩
          · exact hpos
          · rw [Quiet, not_or] at hloud
            omega

/-- An empty feeder that does not stock up passes an allocation on to its source. -/
lemma quietFeeder_passes (hf : (s.mgr i).v = .feeder f) (hfree : (s.mgr i).freePages = 0)
    (hquiet : Quiet s f) (d : ℕ) (g : FeederPhysmem) :
    (pageAlloc T (d + 1) (.feeder g) i).run s
      = (pageAlloc T d (s.mgr f.source).v f.source).run s := by
  simp only [pageAlloc, feederPhysmemPageAlloc]
  rw [run_bind_ok (asFeeder_run hf)]
  simp only [getMgr, run_bind_gets, hfree]
  split_ifs with hshort
  · have hlow : (s.mgr f.source).freePages ≤ f.minFreeSourcePages :=
      hquiet.resolve_left (by omega)
    rw [run_bind_ok (feederRefill_low hlow d _)]
    simp only [run_bind_gets, hfree, lt_irrefl, if_false]
  · simp only [run_bind_gets, hfree, lt_irrefl, if_false]

/-- What a feeder does with a page that is freed: its source takes it when that is low on pages, and
otherwise the source's function is called on the feeder itself. -/
lemma feeder_frees (hf : (s.mgr i).v = .feeder f) (d : ℕ) (g : FeederPhysmem) (addr : ℕ) :
    (pageFree T (d + 1) (.feeder g) i addr).run s
      = ((pageFree T d (s.mgr f.source).v
          (if (s.mgr f.source).freePages < f.minFreeSourcePages then f.source else i) addr) >>=
          fun _ => pure (.ok ())).run s := by
  simp only [pageFree, feederPhysmemPageFree]
  rw [run_bind_ok (asFeeder_run hf)]
  simp only [getMgr, run_bind_gets]
  split_ifs <;> rfl

/-- **A feeder over a feeder does not return** from a free unless that is low on pages. -/
lemma feeder_free_stuck {f₁ : FeederPhysmem} (hf : (s.mgr i).v = .feeder f)
    (hv : (s.mgr f.source).v = .feeder f₁)
    (hhigh : ¬(s.mgr f.source).freePages < f.minFreeSourcePages) (addr d : ℕ) :
    ∀ g, (pageFree T d (.feeder g) i addr).run s = .error .callDepth := by
  induction d with
  | zero => exact fun _ => rfl
  | succ d ih =>
      intro g
      rw [feeder_frees hf, if_neg hhigh, hv]
      exact run_bind_error (ih f₁)

end Nested

/-! ## Chains -/

/-- One step of the callers of a chain of managers: create a feeder over the outermost one, allocate
through some manager, or free an outstanding address through some manager.  Calls nest as deep as
the chain is long. -/
inductive ChainStep (T : PageTable) (d : ℕ) : Pool → Pool → Prop
  | create (r : Pool) (keep min : ℕ) :
      ChainStep T d r { r with st := feederPhysmemCreate r.st (r.st.count - 1) keep min }
  | alloc {r : Pool} {m addr : ℕ} {s' : Managers} : m < r.st.count →
      (physmemPageAlloc T (d + r.st.count + 3) m).run r.st = .ok (.ok addr, s') →
      ChainStep T d r { st := s', out := addr :: r.out }
  | allocFails {r : Pool} {m : ℕ} {e : PhysmemError} {s' : Managers} : m < r.st.count →
      (physmemPageAlloc T (d + r.st.count + 3) m).run r.st = .ok (.error e, s') →
      ChainStep T d r { r with st := s' }
  | free {r : Pool} {m addr : ℕ} {res : Except PhysmemError Unit} {s' : Managers} :
      m < r.st.count → addr ∈ r.out →
      (physmemPageFree T (d + r.st.count + 3) m addr).run r.st = .ok (res, s') →
      ChainStep T d r { st := s', out := r.out.erase addr }

/-- The states of a chain that starts from a source with the given pages, while calls return. -/
def ChainReachable (T : PageTable) (pages : List ℕ) (d : ℕ) : Pool → Prop :=
  Reachable (fun r => IsSource T pages r.st ∧ r.out = []) (ChainStep T d)

/-- An allocation through manager `m` returns, with a page of the source if any manager from there
down has a free page. -/
def AllocComposes (T : PageTable) (pages : List ℕ) (s : Managers) (m : ℕ) : Prop :=
  ∃ d res s', (physmemPageAlloc T d m).run s = .ok (res, s') ∧
    ((∃ k ≤ m, (s.mgr k).freePages ≠ 0) → ∃ p ∈ pages, res = .ok (T.pageToPhys p))

/-- A free through manager `m` returns. -/
def FreeReturns (T : PageTable) (s : Managers) (m addr : ℕ) : Prop :=
  ∃ d res s', (physmemPageFree T d m addr).run s = .ok (res, s')

/-- No feeder from the second one up to manager `m` would stock up. -/
def AllocPasses (s : Managers) (m : ℕ) : Prop :=
  ∀ i f, 2 ≤ i → i ≤ m → (s.mgr i).v = .feeder f → Quiet s f

/-- Every feeder from the second one up to manager `m` finds its source low on pages. -/
def FreePasses (s : Managers) (m : ℕ) : Prop :=
  ∀ i f, 2 ≤ i → i ≤ m → (s.mgr i).v = .feeder f →
    (s.mgr f.source).freePages < f.minFreeSourcePages

/-- The invariant: the source and the first feeder conserve the pages between them, and the feeders
above are empty. -/
structure ChainInv (T : PageTable) (pages : List ℕ) (r : Pool) (fl : ℕ → List ℕ) : Prop where
  base : Conserved T pages { r with st := r.st.setCount (min r.st.count 2) } fl
  upper : ∀ m, 2 ≤ m → m < r.st.count → ∃ f, (r.st.mgr m).v = .feeder f ∧ f.source = m - 1 ∧
    (r.st.mgr m).freePages = 0

section Chains

variable {T : PageTable} {pages : List ℕ} {r r' : Pool} {fl : ℕ → List ℕ} {d m : ℕ}
  {s' : Managers}

lemma ChainInv.pos (h : ChainInv T pages r fl) : 0 < r.st.count := by
  have hpos := h.base.holds.pos
  simp only [Managers.setCount_count] at hpos
  omega

lemma ChainInv.low (h : ChainInv T pages r fl) (hcount : 1 < r.st.count) : LowPair r.st := by
  refine ⟨h.base.holds.root, h.base.holds.feeders 1 one_ne_zero ?_⟩
  show 1 < min r.st.count 2
  omega

/-- Every manager but the source is a feeder over the one before it. -/
lemma ChainInv.feeder (h : ChainInv T pages r fl) {i : ℕ} (hi : 1 ≤ i) (hic : i < r.st.count) :
    ∃ f, (r.st.mgr i).v = .feeder f ∧ f.source = i - 1 := by
  rcases Nat.eq_or_lt_of_le hi with rfl | hi
  · exact (h.low hic).feeder
  · rcases h.upper i hi hic with ⟨f, hf, hsrc, -⟩
    exact ⟨f, hf, hsrc⟩

/-! ### Allocations -/

/-- From manager `i` an allocation goes down to the first feeder. -/
lemma ChainInv.alloc_passes (h : ChainInv T pages r fl) (hm : m < r.st.count)
    (hpass : AllocPasses r.st m) (d : ℕ) {i : ℕ} (hi : 1 ≤ i) (him : i ≤ m) :
    (physmemPageAlloc T (d + i) i).run r.st = (physmemPageAlloc T (d + 1) 1).run r.st := by
  induction i, hi using Nat.le_induction with
  | base => rfl
  | succ i hi ih =>
      rcases h.upper (i + 1) (by omega) (by omega) with ⟨f, hf, hsrc, hfree⟩
      have hquiet := hpass (i + 1) f (by omega) him hf
      have hstep := quietFeeder_passes (T := T) hf hfree hquiet (d + i) f
      rw [hsrc, Nat.add_sub_cancel] at hstep
      rw [← ih (by omega)]
      simp only [physmemPageAlloc, getMgr, run_bind_gets, hf]
      exact hstep

/-- Otherwise it gets stuck in the second feeder. -/
lemma ChainInv.alloc_stuck (h : ChainInv T pages r fl) (hm : m < r.st.count)
    (hstuck : ¬AllocPasses r.st m) (d : ℕ) (res : Except PhysmemError ℕ) (s' : Managers) :
    (physmemPageAlloc T d m).run r.st ≠ .ok (res, s') := by
  -- only the second feeder can stock up: the others are over empty ones
  have hupper : ∀ i f, 3 ≤ i → i ≤ m → (r.st.mgr i).v = .feeder f → Quiet r.st f := by
    intro i f hi him hf
    rcases h.upper i (by omega) (by omega) with ⟨f', hf', hsrc, -⟩
    obtain rfl : f' = f := Vfuncs.feeder.inj (hf'.symm.trans hf)
    rcases h.upper (i - 1) (by omega) (by omega) with ⟨-, -, -, hfree⟩
    refine Or.inr ?_
    rw [hsrc, hfree]
    exact Nat.zero_le _
  obtain ⟨f, h2m, hf, hloud⟩ : ∃ f, 2 ≤ m ∧ (r.st.mgr 2).v = .feeder f ∧ ¬Quiet r.st f := by
    by_contra hnone
    refine hstuck fun i f hi him hf => ?_
    rcases Nat.eq_or_lt_of_le hi with rfl | hi
    · by_contra hloud
      exact hnone ⟨f, him, hf, hloud⟩
    · exact hupper i f hi him hf
  rcases h.upper 2 le_rfl (by omega) with ⟨f', hf', hsrc, hfree⟩
  obtain rfl : f' = f := Vfuncs.feeder.inj (hf'.symm.trans hf)
  have hall : ∀ i, 2 ≤ i → i ≤ m → ∀ d res s',
      (pageAlloc T d (r.st.mgr i).v i).run r.st ≠ .ok (res, s') := by
    intro i hi
    induction i, hi using Nat.le_induction with
    | base =>
        intro _ d res s' hrun
        rw [hf] at hrun
        exact wp_run (secondFeeder_stuck (T := T) hsrc d r.st f' (h.low (by omega)) hf
          (Or.inr ⟨hfree, hloud⟩)) hrun
    | succ i hi ih =>
        intro him d res s' hrun
        rcases h.upper (i + 1) (by omega) (by omega) with ⟨g, hg, hgsrc, hgfree⟩
        rw [hg] at hrun
        cases d with
        | zero => exact absurd hrun (by simp [pageAlloc])
        | succ d =>
            have hstep := quietFeeder_passes (T := T) hg hgfree
              (hupper (i + 1) g (by omega) him hg) d g
            rw [hstep, hgsrc, Nat.add_sub_cancel] at hrun
            exact ih (by omega) d res s' hrun
  exact hall m h2m le_rfl d res s'

/-- An allocation that returns is one through the source or the first feeder. -/
lemma ChainInv.alloc_low (h : ChainInv T pages r fl) (hm : m < r.st.count)
    {res : Except PhysmemError ℕ}
    (hrun : (physmemPageAlloc T (d + r.st.count + 3) m).run r.st = .ok (res, s')) :
    ∃ k d', k < min r.st.count 2 ∧ (physmemPageAlloc T (d' + 4) k).run r.st = .ok (res, s') := by
  have hpos := h.pos
  by_cases hm0 : m = 0
  · subst hm0
    refine ⟨0, d + r.st.count - 1, by omega, ?_⟩
    rw [← hrun]
    congr 2
    omega
  · have hpass : AllocPasses r.st m := by
      by_contra hstuck
      exact h.alloc_stuck hm hstuck _ _ _ hrun
    refine ⟨1, d + r.st.count - m, by omega, ?_⟩
    have hdown := h.alloc_passes hm hpass (d + r.st.count + 3 - m) (Nat.pos_of_ne_zero hm0) le_rfl
    have hdepth : d + r.st.count + 3 - m + m = d + r.st.count + 3 := by omega
    have hdepth' : d + r.st.count + 3 - m + 1 = d + r.st.count - m + 4 := by omega
    rw [hdepth, hdepth'] at hdown
    rw [← hdown, hrun]

/-! ### Frees -/

/-- From manager `i` a free goes down to the first feeder. -/
lemma ChainInv.free_passes (h : ChainInv T pages r fl) (hm : m < r.st.count)
    (hpass : FreePasses r.st m) (addr d : ℕ)
    (hrun : (physmemPageFree T (d + 1) 1 addr).run r.st = .ok (.ok (), s')) {i : ℕ} (hi : 1 ≤ i)
    (him : i ≤ m) : (physmemPageFree T (d + i) i addr).run r.st = .ok (.ok (), s') := by
  induction i, hi using Nat.le_induction with
  | base => exact hrun
  | succ i hi ih =>
      rcases h.upper (i + 1) (by omega) (by omega) with ⟨f, hf, hsrc, -⟩
      have hlow := hpass (i + 1) f (by omega) him hf
      have hstep := feeder_frees (T := T) hf (d + i) f addr
      rw [if_pos hlow, hsrc, Nat.add_sub_cancel] at hstep
      have hprev := ih (by omega)
      simp only [physmemPageFree, getMgr, run_bind_gets, hf] at hprev ⊢
      exact hstep.trans (run_bind_ok hprev)

/-- Otherwise it gets stuck on the way. -/
lemma ChainInv.free_stuck (h : ChainInv T pages r fl) (hm : m < r.st.count)
    (hstuck : ¬FreePasses r.st m) (addr d : ℕ) (res : Except PhysmemError Unit) (s' : Managers) :
    (physmemPageFree T d m addr).run r.st ≠ .ok (res, s') := by
  simp only [FreePasses, not_forall] at hstuck
  rcases hstuck with ⟨i, f, hi, him, hf, hhigh⟩
  have hall : ∀ j, i ≤ j → j ≤ m → ∀ d res s',
      (pageFree T d (r.st.mgr j).v j addr).run r.st ≠ .ok (res, s') := by
    intro j hij
    induction j, hij using Nat.le_induction with
    | base =>
        intro _ d res s' hrun
        rcases h.upper i hi (by omega) with ⟨f', hf', hsrc, -⟩
        obtain rfl : f' = f := Vfuncs.feeder.inj (hf'.symm.trans hf)
        rcases h.feeder (i := i - 1) (by omega) (by omega) with ⟨f₁, hf₁, -⟩
        rw [hf, feeder_free_stuck hf (hsrc ▸ hf₁) hhigh addr d f'] at hrun
        exact absurd hrun (by simp)
    | succ j hij ih =>
        intro hjm d res s' hrun
        rcases h.upper (j + 1) (by omega) (by omega) with ⟨g, hg, hgsrc, -⟩
        rcases h.feeder (i := j) (by omega) (by omega) with ⟨g₁, hg₁, -⟩
        have hv : (r.st.mgr g.source).v = .feeder g₁ := by
          rw [hgsrc, Nat.add_sub_cancel]
          exact hg₁
        rw [hg] at hrun
        by_cases hlow : (r.st.mgr g.source).freePages < g.minFreeSourcePages
        · cases d with
          | zero => exact absurd hrun (by simp [pageFree])
          | succ d =>
              rw [feeder_frees hg, if_pos hlow, hgsrc, Nat.add_sub_cancel] at hrun
              rcases run_bind_iff.mp hrun with ⟨res₁, s₁, hrun₁, -⟩
              exact ih (by omega) d res₁ s₁ hrun₁
        · rw [feeder_free_stuck hg hv hlow addr d g] at hrun
          exact absurd hrun (by simp)
  exact hall m him le_rfl d res s'

/-- The first feeder and the source take a page back. -/
lemma ChainInv.free_low (h : ChainInv T pages r fl) {k : ℕ} (hk : k < min r.st.count 2)
    (d addr : ℕ) : ∃ j < min r.st.count 2, (physmemPageFree T (d + 4) k addr).run r.st
      = .ok (.ok (), r.st.push j (T.physToPage addr)) := by
  rcases physmemPageFree_cases h.base.holds hk d addr with ⟨j, hj, hrun⟩
  exact ⟨j, hj, run_of_setCount _ (physmemPageFree_ignores T _ _ _ _) hrun⟩

/-- A free that returns is one through the source or the first feeder. -/
lemma ChainInv.free_run (h : ChainInv T pages r fl) (hm : m < r.st.count) {addr : ℕ}
    {res : Except PhysmemError Unit}
    (hrun : (physmemPageFree T (d + r.st.count + 3) m addr).run r.st = .ok (res, s')) :
    ∃ j d', j < min r.st.count 2 ∧ s' = r.st.push j (T.physToPage addr) ∧
      ∃ k < min r.st.count 2, (physmemPageFree T (d' + 4) k addr).run r.st = .ok (.ok (), s') := by
  have hpos := h.pos
  by_cases hm0 : m = 0
  · subst hm0
    rcases h.free_low (k := 0) (by omega) (d + r.st.count - 1) addr with ⟨j, hj, hrun₀⟩
    have hdepth : d + r.st.count - 1 + 4 = d + r.st.count + 3 := by omega
    have hrun₁ := hrun₀
    rw [hdepth, hrun, Except.ok.injEq, Prod.mk.injEq] at hrun₁
    exact ⟨j, _, hj, hrun₁.2, 0, by omega, hrun₁.2 ▸ hrun₀⟩
  · have hpass : FreePasses r.st m := by
      by_contra hstuck
      exact h.free_stuck hm hstuck addr _ _ _ hrun
    rcases h.free_low (k := 1) (by omega) (d + r.st.count - m) addr with ⟨j, hj, hrun₀⟩
    have hdown := h.free_passes hm hpass addr (d + r.st.count + 3 - m)
      (by rw [← hrun₀]; congr 2; omega) (Nat.pos_of_ne_zero hm0) le_rfl
    have hdepth : d + r.st.count + 3 - m + m = d + r.st.count + 3 := by omega
    rw [hdepth, hrun, Except.ok.injEq, Prod.mk.injEq] at hdown
    exact ⟨j, _, hj, hdown.2, 1, by omega, hdown.2 ▸ hrun₀⟩

/-! ### Runs -/

/-- The invariant is about what is below the counts and the chains. -/
lemma Holds.congr {s s' : Managers} (h : Holds T s fl) (hcount : s'.count = s.count)
    (hmgr : ∀ m < s.count, s'.mgr m = s.mgr m)
    (hchain : ∀ m < s.count, Chain s'.links (.first m) (fl m)) : Holds T s' fl where
  pos := hcount ▸ h.pos
  root := by rw [hmgr 0 h.pos]; exact h.root
  feeders := by
    intro m hm0 hm
    rw [hmgr m (hcount ▸ hm)]
    exact h.feeders m hm0 (hcount ▸ hm)
  chain := fun m hm => hchain m (hcount ▸ hm)
  freePages := by
    intro m hm
    rw [hmgr m (hcount ▸ hm)]
    exact h.freePages m (hcount ▸ hm)
  totalPages := by
    intro m hm
    rw [hmgr m (hcount ▸ hm)]
    exact h.totalPages m (hcount ▸ hm)
  nodup := hcount ▸ h.nodup
  managed := hcount ▸ h.managed
  small := hcount ▸ h.small

lemma ChainInv.init (hsrc : IsSource T pages r.st) (hout : r.out = []) :
    ∃ fl, ChainInv T pages r fl := by
  have hconserved := Conserved.init hsrc hout
  have hone : r.st.setCount (min r.st.count 2) = r.st :=
    Managers.setCount_self (by rw [hsrc.count]; decide)
  refine ⟨Function.update (fun _ => []) 0 pages, ⟨?_, ?_⟩⟩
  · rw [hone]
    exact hconserved
  · intro m hm hmc
    have hcount := hsrc.count
    omega

/-- A feeder created over the outermost manager is the first one, or empty. -/
lemma ChainInv.create (h : ChainInv T pages r fl) (keep reserve : ℕ) :
    ∃ fl', ChainInv T pages
      { r with st := feederPhysmemCreate r.st (r.st.count - 1) keep reserve } fl' := by
  have hpos := h.pos
  by_cases hone : r.st.count = 1
  · have hself : r.st.setCount (min r.st.count 2) = r.st :=
      Managers.setCount_self (by rw [hone]; decide)
    have hbase := h.base
    rw [hself] at hbase
    have hnext := hbase.create keep reserve
    refine ⟨Function.update fl r.st.count [], ⟨?_, ?_⟩⟩
    · have hst : (feederPhysmemCreate r.st (r.st.count - 1) keep reserve).setCount
          (min (feederPhysmemCreate r.st (r.st.count - 1) keep reserve).count 2)
          = feederPhysmemCreate r.st 0 keep reserve := by
        simp [feederPhysmemCreate, hone, Managers.setCount]
      rw [hst]
      exact hnext
    · intro m hm hmc
      simp only [feederPhysmemCreate] at hmc
      omega
  · have hmin : min r.st.count 2 = 2 := by omega
    have hbase := h.base
    rw [hmin] at hbase
    have hmgr : ∀ m < r.st.count,
        (feederPhysmemCreate r.st (r.st.count - 1) keep reserve).mgr m = r.st.mgr m :=
      fun m hm => Function.update_of_ne (Nat.ne_of_lt hm) _ _
    refine ⟨fl, ⟨?_, ?_⟩⟩
    · have hcount : min (feederPhysmemCreate r.st (r.st.count - 1) keep reserve).count 2 = 2 := by
        simp only [feederPhysmemCreate]
        omega
      rw [hcount]
      refine { hbase with holds := hbase.holds.congr rfl ?_ ?_ }
      · intro m hm
        exact hmgr m (by simp only [Managers.setCount_count] at hm; omega)
      · intro m hm
        have hne : m ≠ r.st.count := by simp only [Managers.setCount_count] at hm; omega
        refine Chain.congr (L := r.st.links) ?_ (fun _ _ => rfl) (fun _ _ => rfl)
          (hbase.holds.chain m hm)
        simp [feederPhysmemCreate, Links.listInit, Links.write, Links.read, hne]
    · intro m hm hmc
      rcases Nat.lt_succ_iff_lt_or_eq.mp hmc with hlt | rfl
      · show ∃ f, ((feederPhysmemCreate r.st _ keep reserve).mgr m).v = _ ∧ _
        rw [hmgr m hlt]
        exact h.upper m hm hlt
      · refine ⟨⟨r.st.count - 1, keep, reserve⟩, ?_, rfl, ?_⟩ <;>
          simp [feederPhysmemCreate]

/-- An allocation that returned through the source or the first feeder keeps the upper feeders. -/
lemma ChainInv.upper_alloc (h : ChainInv T pages r fl) {k d : ℕ} (hk : k < min r.st.count 2)
    {res : Except PhysmemError ℕ}
    (hrun : (physmemPageAlloc T d k).run r.st = .ok (res, s')) : SameAbove r.st s' := by
  rw [physmemPageAlloc, getMgr, run_bind_gets] at hrun
  rcases Nat.eq_zero_or_pos k with rfl | hk0
  · have hroot : (r.st.mgr 0).v = .common := h.base.holds.root
    rw [hroot] at hrun
    have hsame := wp_run (pageAlloc_common_same T d 0 (by decide) r.st) hrun
    exact hsame
  · obtain rfl : k = 1 := by omega
    have hlow := h.low (by omega)
    rcases hlow.feeder with ⟨f, hf, -⟩
    rw [hf] at hrun
    have hsame := wp_run (pageAlloc_same T hlow d f) hrun
    exact hsame

/-- **Every call that returns keeps the invariant.** -/
lemma ChainInv.step (h : ChainInv T pages r fl) (hs : ChainStep T d r r') :
    ∃ fl', ChainInv T pages r' fl' := by
  have hupper : ∀ {s' : Managers}, s'.count = r.st.count → (∀ k, 2 ≤ k → s'.mgr k = r.st.mgr k) →
      ∀ m, 2 ≤ m → m < s'.count → ∃ f, (s'.mgr m).v = .feeder f ∧ f.source = m - 1 ∧
        (s'.mgr m).freePages = 0 := by
    intro s' hcount hmgr m hm hmc
    rw [hmgr m hm]
    exact h.upper m hm (hcount ▸ hmc)
  cases hs with
  | create keep reserve => exact h.create keep reserve
  | @alloc m addr s' hm hrun =>
      rcases h.alloc_low hm hrun with ⟨k, d', hk, hrun'⟩
      rcases setCount_run (min r.st.count 2) (physmemPageAlloc_ignores T · _ _) hrun' with
        ⟨hbase, hcount⟩
      rcases h.base.step (.alloc (d := d') hk hbase) with ⟨fl', hnext⟩
      refine ⟨fl', ?_, hupper hcount (h.upper_alloc hk hrun').mgr⟩
      rw [hcount]
      exact hnext
  | @allocFails m e s' hm hrun =>
      rcases h.alloc_low hm hrun with ⟨k, d', hk, hrun'⟩
      rcases setCount_run (min r.st.count 2) (physmemPageAlloc_ignores T · _ _) hrun' with
        ⟨hbase, hcount⟩
      rcases h.base.step (.allocFails (d := d') hk hbase) with ⟨fl', hnext⟩
      refine ⟨fl', ?_, hupper hcount (h.upper_alloc hk hrun').mgr⟩
      rw [hcount]
      exact hnext
  | @free m addr res s' hm ha hrun =>
      rcases h.free_run hm hrun with ⟨j, d', hj, hs', k, hk, hrun'⟩
      rcases setCount_run (min r.st.count 2) (physmemPageFree_ignores T · _ _ _) hrun' with
        ⟨hbase, hcount⟩
      rcases h.base.step (.free (d := d') hk ha hbase) with ⟨fl', hnext⟩
      refine ⟨fl', ?_, hupper hcount ?_⟩
      · rw [hcount]
        exact hnext
      · intro i hi
        have hne : i ≠ j := by omega
        rw [hs']
        simp [Managers.push, Function.update_of_ne hne]

theorem ChainReachable.inv (hr : ChainReachable T pages d r) : ∃ fl, ChainInv T pages r fl :=
  Reachable.invariant (I := fun r => ∃ fl, ChainInv T pages r fl)
    (fun _ hinit => ChainInv.init hinit.1 hinit.2) (fun _ _ h hs => h.elim fun _ h => h.step hs) hr

/-! ### When calls return -/

/-- An allocation through the source or the first feeder finds a page where there is one. -/
lemma ChainInv.alloc_finds (h : ChainInv T pages r fl) {k : ℕ} (hk : k < min r.st.count 2)
    (d : ℕ) : ∃ res s', (physmemPageAlloc T (d + 4) k).run r.st = .ok (res, s') ∧
      ((∃ j ≤ k, (r.st.mgr j).freePages ≠ 0) → ∃ p ∈ pages, res = .ok (T.pageToPhys p)) := by
  have hholds := h.base.holds
  rcases physmemPageAlloc_cases hholds hk d with
    ⟨s₁, fl₁, j, hj, -, hcount₁, -, hperm, ⟨-, hrun⟩ | ⟨x, xs, hfl, hrun⟩⟩
  · refine ⟨_, _, run_of_setCount _ (physmemPageAlloc_ignores T _ _ _) hrun, ?_⟩
    rintro ⟨i, hi, hfree⟩
    exfalso
    -- one of the lists that the allocation goes through still has a page
    have hne : fl i ≠ [] := by
      rw [← List.length_pos_iff, ← hholds.freePages i (lt_of_le_of_lt hi hk)]
      exact Nat.pos_of_ne_zero hfree
    by_cases hk0 : k = 0
    · subst hk0
      obtain rfl : i = 0 := Nat.le_zero.mp hi
      rcases commonAlloc_answer hholds d with ⟨hnil, -⟩ | ⟨-, addr, s₂, hrun₂⟩
      · exact hne hnil
      · rw [hrun] at hrun₂
        simp at hrun₂
    · obtain rfl : k = 1 := by omega
      rcases hholds.feeders 1 one_ne_zero hk with ⟨f, hf, hsrc⟩
      rcases feederAlloc_answer hholds hk one_ne_zero hf hsrc d with
        ⟨hnil, hnil0, -⟩ | ⟨-, addr, s₂, hrun₂⟩
      · rcases (by omega : i = 0 ∨ i = 1) with rfl | rfl
        · exact hne hnil0
        · exact hne hnil
      · rw [hrun] at hrun₂
        simp at hrun₂
  · refine ⟨_, _, run_of_setCount _ (physmemPageAlloc_ignores T _ _ _) hrun, fun _ => ⟨x, ?_, rfl⟩⟩
    have hmem : x ∈ allFree (min r.st.count 2) fl :=
      hperm.mem_iff.mp (mem_allFree.mpr ⟨j, hcount₁ ▸ hj, by simp [hfl]⟩)
    exact h.base.perm.mem_iff.mp (List.mem_append_right _ hmem)

/-- **When feeders compose.**  Take any chain of feeders over a source, after any calls that
returned.  An allocation through a manager of the chain returns, with a page of the source if any
manager below has one, exactly when no feeder from the second one up would stock up; a free returns
exactly when every feeder from the second one up finds its source low on pages.  With at most one
feeder in the way there is nothing to ask. -/
theorem feeders_compose_iff (hr : ChainReachable T pages d r) (hm : m < r.st.count) :
    (AllocComposes T pages r.st m ↔ AllocPasses r.st m) ∧
      ∀ addr ∈ r.out, FreeReturns T r.st m addr ↔ FreePasses r.st m := by
  rcases hr.inv with ⟨fl, h⟩
  have hpos := h.pos
  refine ⟨⟨?_, ?_⟩, fun addr _ => ⟨?_, ?_⟩⟩
  · rintro ⟨d', res, s', hrun, -⟩
    by_contra hstuck
    exact h.alloc_stuck hm hstuck _ _ _ hrun
  · intro hpass
    rcases Nat.eq_zero_or_pos m with rfl | hm0
    · rcases h.alloc_finds (k := 0) (by omega) 0 with ⟨res, s', hrun, hfinds⟩
      exact ⟨_, res, s', hrun, hfinds⟩
    · rcases h.alloc_finds (k := 1) (by omega) 0 with ⟨res, s', hrun, hfinds⟩
      refine ⟨3 + m, res, s', (h.alloc_passes hm hpass 3 hm0 le_rfl).trans hrun, ?_⟩
      rintro ⟨k, hk, hfree⟩
      refine hfinds ⟨k, ?_, hfree⟩
      by_contra hk1
      rcases h.upper k (by omega) (by omega) with ⟨-, -, -, hzero⟩
      exact hfree hzero
  · rintro ⟨d', res, s', hrun⟩
    by_contra hstuck
    exact h.free_stuck hm hstuck addr _ _ _ hrun
  · intro hpass
    rcases Nat.eq_zero_or_pos m with rfl | hm0
    · rcases h.free_low (k := 0) (by omega) 0 addr with ⟨j, -, hrun⟩
      exact ⟨_, _, _, hrun⟩
    · rcases h.free_low (k := 1) (by omega) 0 addr with ⟨j, -, hrun⟩
      exact ⟨_, _, _, h.free_passes hm hpass addr 3 hrun hm0 le_rfl⟩

end Chains

/-- Three pages and two feeders with a reserve of one page each: the first allocation through the
outer one has returned, and so does a free. -/
theorem feeders_compose_three : ∃ r : Pool, ChainReachable i686PageTable [1, 2, 3] 0 r ∧
    r.st.count = 3 ∧ r.out = [4096] ∧ AllocComposes i686PageTable [1, 2, 3] r.st 2 := by
  have h₀ : ChainReachable i686PageTable [1, 2, 3] 0 { st := threePages, out := [] } :=
    .base ⟨threePages_isSource, rfl⟩
  have h₁ := (h₀.tail (.create _ 0 1)).tail (.create _ 0 1)
  have h₂ := h₁.tail (.alloc (m := 2) (by decide) rfl)
  refine ⟨_, h₂, rfl, rfl, ((feeders_compose_iff h₂ (m := 2) (by decide)).1).mpr ?_⟩
  intro i f hi him hf
  obtain rfl : i = 2 := by omega
  obtain rfl : f = ⟨1, 0, 1⟩ := (Vfuncs.feeder.inj hf).symm
  exact Or.inr (by decide)

/-- Two feeders that keep no page and reserve none: after an allocation through the outer one, the
free of that page calls itself without end. -/
theorem feeder_chain_stuck :
    ¬∀ r : Pool, ChainReachable i686PageTable [1, 2, 3] 0 r →
      AllocComposes i686PageTable [1, 2, 3] r.st (r.st.count - 1) ∧
        ∀ addr ∈ r.out, FreeReturns i686PageTable r.st (r.st.count - 1) addr := by
  intro hall
  have h₀ : ChainReachable i686PageTable [1, 2, 3] 0 { st := threePages, out := [] } :=
    .base ⟨threePages_isSource, rfl⟩
  have h₁ := (h₀.tail (.create _ 0 0)).tail (.create _ 0 0)
  have h₂ := h₁.tail (.alloc (m := 2) (by decide) rfl)
  have hstate : ∃ r : Pool, ChainReachable i686PageTable [1, 2, 3] 0 r ∧ r.st.count = 3 ∧
      4096 ∈ r.out ∧ ¬FreePasses r.st 2 := by
    refine ⟨_, h₂, rfl, List.mem_cons_self, fun hpass => ?_⟩
    exact absurd (hpass 2 ⟨1, 0, 0⟩ le_rfl le_rfl rfl) (by decide)
  rcases hstate with ⟨r, hr, hcount, hout, hstuck⟩
  rcases hr.inv with ⟨fl, h⟩
  rcases (hall r hr).2 4096 hout with ⟨d, res, s', hrun⟩
  rw [hcount] at hrun
  exact h.free_stuck (m := 2) (by omega) hstuck 4096 d res s' hrun

end Akaris
