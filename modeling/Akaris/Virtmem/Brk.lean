import Akaris.Virtmem.Tables

/-!
# The identity map of the kernel

`i686_brk` extends the range of kernel addresses that are mapped to themselves minus `highstart`.
Both limits are rounded up to page numbers and the loop begins behind the old one, so each call maps
the page *at* its rounded limit as well; this is the page that the next call does not map.
`IdentityUpTo` says so, and is the invariant that leaves no gap: `IdentityUpTo.extend`.

* **`brk_identity_map`** — over any run of calls, the limit is the largest one asked for, all pages
  below it are mapped to themselves, and no entry above the rounded limit is written.
-/

namespace Akaris

variable {K : KernelImage}

-- the rules are all that is used of it: computing it would run the program
attribute [local irreducible] Prog.wp

/-- Memory, and the `identitymap_limit` of `i686_virtmem`. -/
structure BrkState where
  mem : PhysMem
  identitymapLimit : ℕ

/-- Code that cannot fault. -/
abbrev BrkProg (α : Type) := Prog Empty BrkState α

/-- The loop of `i686_brk`, `n` pages from `curpage` on. -/
def i686BrkLoop (K : KernelImage) : (n curpage : ℕ) → BrkProg Unit
  | 0, _ => return ()
  | n + 1, curpage => do
      let physAddr := sub32 (wrap32 (pgSize * curpage)) highstart
      let physPage := physAddr / pgSize
      Prog.update fun s => { s with
        mem := setKernelFlatpt K s.mem physPage (i686SetPte (kernelFlatpt K s.mem physPage) physAddr
          (i686PagePresent ||| i686PageWritable)) }
      i686BrkLoop K n (curpage + 1)

/-- `i686_brk`. -/
def i686Brk (K : KernelImage) (newend : ℕ) : BrkProg ℕ := do
  let oldlimit ← Prog.gets BrkState.identitymapLimit
  let oldLimitPage := wrap32 (oldlimit + (pgSize - 1)) / pgSize
  let newLimitPage := wrap32 (newend + (pgSize - 1)) / pgSize
  if newend < oldlimit then
    return oldlimit
  else
    i686BrkLoop K (newLimitPage - oldLimitPage) (oldLimitPage + 1)
    Prog.update fun s => { s with identitymapLimit := newend }
    return oldlimit

/-! ## One call -/

/-- Kernel page `i` is present, writable and mapped to its address minus `highstart`. -/
structure IdentityMapped (K : KernelImage) (mem : PhysMem) (i : ℕ) : Prop where
  present : Entry.present.get (kernelFlatpt K mem i) = 1
  writable : Entry.writable.get (kernelFlatpt K mem i) = 1
  frame : Entry.physAddr.get (kernelFlatpt K mem i) = i

/-- The first `n` kernel pages are identity mapped, and nothing but their entries has changed since
`base`. -/
structure IdentityUpTo (K : KernelImage) (base : PhysMem) (n : ℕ) (mem : PhysMem) : Prop where
  mapped : ∀ i < n, IdentityMapped K mem i
  kept : ∀ f w, (∀ i < n, ¬(f = K.kernelPts + i / 1024 ∧ w = i % 1024)) → mem f w = base f w

section Calls

variable {base mem : PhysMem} {s s' : BrkState} {n m i newend : ℕ}

/-- The first kernel page that is not mapped yet. -/
lemma IdentityUpTo.extend (h : IdentityUpTo K base n mem) (hn : n < 2 ^ 20) (x : Word) :
    IdentityUpTo K base (n + 1) (setKernelFlatpt K mem n
      (i686SetPte x (n * 4096) (i686PagePresent ||| i686PageWritable))) := by
  refine ⟨fun i hi => ?_, fun f w hout => ?_⟩
  · by_cases heq : i = n
    · rw [heq]
      refine ⟨?_, ?_, ?_⟩
      · rw [setKernelFlatpt_self, present_setPte]
        rfl
      · rw [setKernelFlatpt_self, writable_setPte]
        rfl
      · rw [setKernelFlatpt_self, physAddr_setPte]
        exact physAddr_frame hn
    · have hold := h.mapped i (by omega)
      have hkept : kernelFlatpt K (setKernelFlatpt K mem n
          (i686SetPte x (n * 4096) (i686PagePresent ||| i686PageWritable))) i
            = kernelFlatpt K mem i := setKernelFlatpt_of_ne heq
      exact ⟨by rw [hkept, hold.present], by rw [hkept, hold.writable], by rw [hkept, hold.frame]⟩
  · have hne : ¬(f = K.kernelPts + n / 1024 ∧ w = n % 1024) := hout n (Nat.lt_succ_self n)
    have hwrite : setKernelFlatpt K mem n
        (i686SetPte x (n * 4096) (i686PagePresent ||| i686PageWritable)) f w = mem f w :=
      if_neg hne
    rw [hwrite, h.kept f w fun i hi => hout i (by omega)]

/-- **The loop** maps page after page. -/
lemma i686BrkLoop_wp (h : IdentityUpTo K base n s.mem) (hend : n + m ≤ 2 ^ 18) :
    Prog.wp (i686BrkLoop K m (786432 + n))
      (fun _ s' => IdentityUpTo K base (n + m) s'.mem ∧
        s'.identitymapLimit = s.identitymapLimit)
      (fun _ => False) s := by
  induction m generalizing n s with
  | zero =>
      rw [i686BrkLoop, Prog.wp_pure]
      exact ⟨h, rfl⟩
  | succ m ih =>
      have haddr : sub32 (wrap32 (pgSize * (786432 + n))) highstart = n * 4096 := by
        rw [pgSize, wrap32_of_lt (by omega), highstart, sub32_of_le (by omega) (by omega)]
        omega
      have hpage : n * 4096 / pgSize = n := Nat.mul_div_cancel _ (by norm_num [pgSize])
      simp only [i686BrkLoop, Prog.wp_bind, Prog.wp_update, haddr, hpage]
      have hnext := ih (n := n + 1) (s := ⟨_, s.identitymapLimit⟩)
        (h.extend (by omega) (kernelFlatpt K s.mem n)) (by omega)
      rw [show n + 1 + m = n + (m + 1) by omega] at hnext
      exact hnext

/-- The number of kernel pages up to the one at the rounded limit. -/
def pagesUpTo (limit : ℕ) : ℕ := (limit + 4095) / 4096 - 786432 + 1

/-- **One call** with a limit that can be rounded up. -/
lemma i686Brk_wp (h : IdentityUpTo K base (pagesUpTo s.identitymapLimit) s.mem)
    (hlo : highstart ≤ s.identitymapLimit) (hhi : s.identitymapLimit ≤ 0xFFFFF000)
    (hnew : newend ≤ 0xFFFFF000) :
    Prog.wp (i686Brk K newend)
      (fun old s' => old = s.identitymapLimit ∧
        s'.identitymapLimit = max newend s.identitymapLimit ∧
        IdentityUpTo K base (pagesUpTo s'.identitymapLimit) s'.mem ∧
        (newend < s.identitymapLimit → s' = s))
      (fun _ => False) s := by
  simp only [i686Brk, Prog.wp_bind, Prog.wp_gets]
  split_ifs with hlt
  · rw [Prog.wp_pure]
    exact ⟨rfl, (max_eq_right hlt.le).symm, h, fun _ => rfl⟩
  · unfold highstart at hlo
    have hold : wrap32 (s.identitymapLimit + (pgSize - 1)) / pgSize + 1
        = 786432 + pagesUpTo s.identitymapLimit := by
      rw [pgSize, wrap32_of_lt (by omega), pagesUpTo]
      omega
    obtain ⟨m, hm⟩ : ∃ m, m = wrap32 (newend + (pgSize - 1)) / pgSize
        - wrap32 (s.identitymapLimit + (pgSize - 1)) / pgSize := ⟨_, rfl⟩
    have hsum : pagesUpTo s.identitymapLimit + m = pagesUpTo newend := by
      rw [hm, pgSize, wrap32_of_lt (by omega), wrap32_of_lt (by omega), pagesUpTo, pagesUpTo]
      omega
    have hend : pagesUpTo newend ≤ 2 ^ 18 := by
      unfold pagesUpTo
      omega
    simp only [← hm, hold, Prog.wp_bind]
    refine Prog.wp_mono (i686BrkLoop_wp h (by omega)) ?_ fun _ he => he
    rintro _ s' ⟨hmapped, -⟩
    rw [Prog.wp_bind, Prog.wp_update, Prog.wp_pure]
    refine ⟨rfl, (max_eq_left (Nat.not_lt.mp hlt)).symm, ?_, fun hc => absurd hc hlt⟩
    show IdentityUpTo K base (pagesUpTo newend) s'.mem
    rw [← hsum]
    exact hmapped

end Calls

/-! ## Runs -/

/-- The state after some calls, and the limits they asked for, the latest first. -/
structure BrkRun where
  s : BrkState
  ends : List ℕ

/-- One call, with a limit that can be rounded up. -/
inductive BrkStep (K : KernelImage) : BrkRun → BrkRun → Prop
  | brk {r : BrkRun} {newend old : ℕ} {s' : BrkState} : newend ≤ 0xFFFFF000 →
      (i686Brk K newend).run r.s = .ok (old, s') → BrkStep K r ⟨s', newend :: r.ends⟩

/-- The states that calls lead to from `s₀`. -/
def BrkReachable (K : KernelImage) (s₀ : BrkState) : BrkRun → Prop :=
  Reachable (fun r => r = ⟨s₀, []⟩) (BrkStep K)

/-- The state `i686_virtmem_init` begins with: the limit is `highstart`, and the loader has mapped the
first page. -/
structure BrkInit (K : KernelImage) (s₀ : BrkState) : Prop where
  limit : s₀.identitymapLimit = highstart
  first : IdentityMapped K s₀.mem 0

/-- **The invariant** of the calls. -/
structure BrkInv (K : KernelImage) (s₀ : BrkState) (r : BrkRun) : Prop where
  limit : r.s.identitymapLimit = r.ends.foldr max highstart
  lo : highstart ≤ r.s.identitymapLimit
  hi : r.s.identitymapLimit ≤ 0xFFFFF000
  identity : IdentityUpTo K s₀.mem (pagesUpTo r.s.identitymapLimit) r.s.mem

section Runs

variable {s₀ : BrkState} {r r' : BrkRun}

lemma BrkInv.init (h₀ : BrkInit K s₀) : BrkInv K s₀ ⟨s₀, []⟩ := by
  refine ⟨h₀.limit, h₀.limit.ge, ?_, ?_⟩
  · show s₀.identitymapLimit ≤ _
    rw [h₀.limit, highstart]
    norm_num
  · show IdentityUpTo K s₀.mem (pagesUpTo s₀.identitymapLimit) s₀.mem
    have hone : pagesUpTo highstart = 1 := by
      rw [pagesUpTo, highstart]
    rw [h₀.limit, hone]
    refine ⟨fun i hi => ?_, fun _ _ _ => rfl⟩
    rw [Nat.lt_one_iff.mp hi]
    exact h₀.first

lemma BrkInv.step (h : BrkInv K s₀ r) (hs : BrkStep K r r') : BrkInv K s₀ r' := by
  cases hs with
  | @brk newend old s' hnew hrun =>
      rcases Prog.wp_run (i686Brk_wp h.identity h.lo h.hi hnew) hrun with
        ⟨-, hlimit, hidentity, -⟩
      refine ⟨?_, ?_, ?_, hidentity⟩
      · show s'.identitymapLimit = max newend _
        rw [hlimit, h.limit]
      · show highstart ≤ s'.identitymapLimit
        rw [hlimit]
        exact h.lo.trans (le_max_right _ _)
      · show s'.identitymapLimit ≤ _
        rw [hlimit]
        exact max_le hnew h.hi

/-- **`brk` keeps the kernel identity mapped.**  After any run of calls with limits of at most
`0xFFFFF000`: (a) the limit is the largest of `highstart` and those asked for; (b) every kernel page
that begins below it is present, writable and mapped to its address minus `highstart`; (c) the next
call returns the limit, and changes nothing when it asks for a lower one; (d) nothing was written
but entries of kernel pages up to the one at the rounded limit. -/
theorem brk_identity_map (h₀ : BrkInit K s₀) (hr : BrkReachable K s₀ r) :
    r.s.identitymapLimit = r.ends.foldr max highstart ∧
    (∀ i, highstart + i * 4096 < r.s.identitymapLimit → IdentityMapped K r.s.mem i) ∧
    (∀ newend ≤ 0xFFFFF000, ∃ s', (i686Brk K newend).run r.s = .ok (r.s.identitymapLimit, s') ∧
      (newend < r.s.identitymapLimit → s' = r.s)) ∧
    (∀ f w, (∀ i < 256 * 1024, highstart + i * 4096 ≤ (r.s.identitymapLimit + 4095) / 4096 * 4096 →
      ¬(f = K.kernelPts + i / 1024 ∧ w = i % 1024)) → r.s.mem f w = s₀.mem f w) := by
  have h : BrkInv K s₀ r := by
    refine Reachable.invariant (I := BrkInv K s₀) ?_ (fun _ _ h hs => h.step hs) hr
    rintro _ rfl
    exact BrkInv.init h₀
  have hlo := h.lo
  have hhi := h.hi
  refine ⟨h.limit, fun i hi => h.identity.mapped i ?_, fun newend hnew => ?_, fun f w hout => ?_⟩
  · unfold highstart at hi
    unfold pagesUpTo
    omega
  · rcases Prog.wp_returns (i686Brk_wp h.identity h.lo h.hi hnew) with
      ⟨old, s', hrun, rfl, -, -, hsame⟩
    exact ⟨s', hrun, hsame⟩
  · refine h.identity.kept f w fun i hi => hout i ?_ ?_
    · unfold pagesUpTo at hi
      unfold highstart at hlo
      omega
    · unfold pagesUpTo at hi
      unfold highstart at hlo ⊢
      omega

end Runs

/-- Two calls, of which the second asks for less. -/
theorem brk_identity_map_two : ∃ s₀ : BrkState, ∃ r : BrkRun, BrkReachable smallImage s₀ r ∧
    r.ends = [0xC0001000, 0xC0001234] ∧ r.s.identitymapLimit = 0xC0001234 := by
  let s₀ : BrkState := ⟨fun f w => if f = 2 ∧ w = 0 then 3 else 0, 0xC0000000⟩
  have hinit : BrkInit smallImage s₀ :=
    ⟨rfl, by decide +kernel, by decide +kernel, by decide +kernel⟩
  have h₀ : BrkReachable smallImage s₀ ⟨s₀, []⟩ := .base rfl
  let s₁ := Prog.after (i686Brk smallImage 0xC0001234) s₀
  let s₂ := Prog.after (i686Brk smallImage 0xC0001000) s₁
  have h₁ : BrkReachable smallImage s₀ ⟨s₁, [0xC0001234]⟩ :=
    h₀.tail (.brk (by norm_num) (Prog.run_after (a := 0xC0000000) (by decide +kernel)))
  have h₂ : BrkReachable smallImage s₀ ⟨s₂, [0xC0001000, 0xC0001234]⟩ :=
    h₁.tail (.brk (by norm_num) (Prog.run_after (a := 0xC0001234) (by decide +kernel)))
  have hlimit := (brk_identity_map hinit h₂).1
  exact ⟨s₀, _, h₂, rfl, hlimit.trans (by decide +kernel)⟩

end Akaris
