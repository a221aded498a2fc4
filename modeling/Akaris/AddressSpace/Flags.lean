import Akaris.AddressSpace.Defs

/-!
# Writable or executable, not both

The flags of a region are set and the region is mapped, in any order and any number of times.
`set_flags` compares two `int`s and keeps one bit of each; what it must refuse is the case that both
lowest bits are set, and that it does, because then the conjunction has its lowest bit set too
(`setFlags_wx`).  `memory_region_map` passes the bits on to `user_set_page_flags`.

To talk about the calls a map makes, it is run on a watched machine: `watchFlags c` is `c`, except
that it stops, with the fault `none`, when a page is to be made both writable and executable.

**`w_xor_x`** — the region is never both, a refused call changes nothing, and a map never makes the
watched machine stop.
-/

namespace Akaris

variable {ε σ : Type}

/-- The flags ask for a page that is both writable and executable. -/
def WritableAndExecutable (flags : ℕ) : Prop :=
  flags &&& virtmemPageWritable = virtmemPageWritable ∧
    flags &&& virtmemPageExecutable = virtmemPageExecutable

instance (flags : ℕ) : Decidable (WritableAndExecutable flags) := inferInstanceAs (Decidable (_ ∧ _))

/-- Code of a machine, on the watched machine. -/
def watched {α : Type} (x : Prog ε σ α) : Prog (Option ε) σ α := Prog.zoom id (fun s _ => s) some x

/-- The machine `c`, stopping with `none` when a page is to be made writable and executable. -/
def watchFlags (c : Cpu ε σ) : Cpu (Option ε) σ where
  physmemPageSize := c.physmemPageSize
  physmemPageSize_lt := c.physmemPageSize_lt
  physmemPageAlloc := watched c.physmemPageAlloc
  physmemPageFree address := watched (c.physmemPageFree address)
  virtmemKernelAlloc nPages := watched (c.virtmemKernelAlloc nPages)
  virtmemKernelFree addr := watched (c.virtmemKernelFree addr)
  virtmemKernelMapVirtToPhys p addr := watched (c.virtmemKernelMapVirtToPhys p addr)
  virtmemUserGetPage pd vaddr := watched (c.virtmemUserGetPage pd vaddr)
  virtmemUserMapPage pd vaddr p := watched (c.virtmemUserMapPage pd vaddr p)
  virtmemUserSetPageFlags pd vaddr flags :=
    if WritableAndExecutable flags then Prog.fault none
    else watched (c.virtmemUserSetPageFlags pd vaddr flags)
  virtmemUserSetupKernelspace pd := watched (c.virtmemUserSetupKernelspace pd)
  memset s b n := watched (c.memset s b n)
  memcpy dst src n := watched (c.memcpy dst src n)

/-! ## One call -/

section Calls

variable {c : Cpu ε σ} {s : σ}

/-- No bit of the two numbers agrees when their conjunction is accepted. -/
lemma setFlags_wx {writable executable : BitVec 32} (h : executable &&& writable = 0) :
    ¬(writable.getLsbD 0 = true ∧ executable.getLsbD 0 = true) := by
  rintro ⟨hw, hx⟩
  have hbit : (executable &&& writable).getLsbD 0 = false := by
    rw [h]
    rfl
  rw [BitVec.getLsbD_and, hw, hx] at hbit
  exact absurd hbit (by decide)

/-- `set_flags` refuses, or stores the two lowest bits of numbers that have no bit in common. -/
lemma commonMemoryRegionSetFlags_run (mr : ℕ) (writable executable : BitVec 32) (m : AsMem) :
    (commonMemoryRegionSetFlags mr writable executable : AsProg ε _).run m
        = .ok (.error .invalid, m) ∨
      executable &&& writable = 0 ∧
        (commonMemoryRegionSetFlags mr writable executable : AsProg ε _).run m
          = .ok (.ok (), { m with region := Function.update m.region mr { m.region mr with
              writable := writable.getLsbD 0, executable := executable.getLsbD 0 } }) := by
  unfold commonMemoryRegionSetFlags
  by_cases hmr : mr = 0
  · left
    rw [if_pos hmr]
    rfl
  · rw [if_neg hmr]
    by_cases hwx : executable &&& writable = 0
    · right
      rw [if_neg (not_not.mpr hwx)]
      exact ⟨hwx, rfl⟩
    · left
      rw [if_pos hwx]
      rfl

/-- The page flags of a region have both bits only when the region has. -/
lemma regionPageFlags_wx {mr : MemoryRegion} (h : ¬(mr.writable = true ∧ mr.executable = true)) :
    ¬WritableAndExecutable (regionPageFlags mr) := by
  rcases mr with ⟨start, length, writable, executable⟩
  revert h
  cases writable <;> cases executable <;>
    simp [regionPageFlags, WritableAndExecutable, virtmemPageReadable, virtmemPageWritable,
      virtmemPageExecutable]

/-- Watching does not add a stop of its own. -/
lemma callVirtmem_watched_wp {α : Type} (x : Prog ε σ α) :
    Prog.wp (callVirtmem (watched x)) (fun _ _ => True) (fun e => e ≠ .env none) s := by
  simp only [callVirtmem, watched, Prog.wp_zoom]
  refine Prog.wp_mono (Prog.wp_self x s) ?_ ?_
  · intro _ _ _
    trivial
  · intro e _
    simp

lemma callVirtmem_setFlags_wp {flags : ℕ} (hflags : ¬WritableAndExecutable flags) (pd v : ℕ) :
    Prog.wp (callVirtmem ((watchFlags c).virtmemUserSetPageFlags pd v flags)) (fun _ _ => True)
      (fun e => e ≠ .env none) s := by
  simp only [watchFlags, if_neg hflags]
  exact callVirtmem_watched_wp _

/-- The loop that maps given frames. -/
lemma memoryRegionMapExact_watched {flags : ℕ} (hflags : ¬WritableAndExecutable flags) (pd n : ℕ) :
    ∀ cur p s, Prog.wp (memoryRegionMapExact (watchFlags c) pd flags n cur p) (fun _ _ => True)
      (fun e => e ≠ .env none) s := by
  induction n with
  | zero =>
      intro cur p s
      trivial
  | succ n ih =>
      intro cur p s
      simp only [memoryRegionMapExact, Prog.wp_bind]
      refine Prog.wp_mono (callVirtmem_watched_wp _) ?_ fun _ he => he
      intro _ s₁ _
      rw [Prog.wp_bind]
      refine Prog.wp_mono (callVirtmem_setFlags_wp hflags pd cur) ?_ fun _ he => he
      intro _ s₂ _
      exact ih _ _ s₂

/-- The loop that maps fresh frames. -/
lemma memoryRegionMapAllocate_watched {flags : ℕ} (hflags : ¬WritableAndExecutable flags)
    (pd n : ℕ) : ∀ cur p s,
    Prog.wp (memoryRegionMapAllocate (watchFlags c) pd flags n cur p) (fun _ _ => True)
      (fun e => e ≠ .env none) s := by
  induction n with
  | zero =>
      intro cur p s
      trivial
  | succ n ih =>
      intro cur p s
      rw [memoryRegionMapAllocate, Prog.wp_bind]
      refine Prog.wp_mono (callVirtmem_watched_wp _) ?_ fun _ he => he
      intro r s₁ _
      -- what `p` holds now: nothing, no frame, or a frame
      dsimp only
      split
      · exact (Prog.wp_fault _).mpr (by simp)
      · rw [Prog.wp_bind]
        refine Prog.wp_mono (callVirtmem_watched_wp _) ?_ fun _ he => he
        intro r s₂ _
        cases r with
        | error _ => trivial
        | ok paddr =>
            rw [Prog.wp_bind]
            refine Prog.wp_mono (callVirtmem_watched_wp _) ?_ fun _ he => he
            intro _ s₃ _
            rw [Prog.wp_bind]
            refine Prog.wp_mono (callVirtmem_setFlags_wp hflags pd cur) ?_ fun _ he => he
            intro _ s₄ _
            exact ih _ _ s₄
      · rw [Prog.wp_bind]
        refine Prog.wp_mono (callVirtmem_setFlags_wp hflags pd cur) ?_ fun _ he => he
        intro _ s₂ _
        exact ih _ _ s₂

/-- **A map asks for no page that is writable and executable**, when the region is not both. -/
lemma commonMemoryRegionMap_watched {mr : MemoryRegion}
    (h : ¬(mr.writable = true ∧ mr.executable = true)) (as : AddressSpace) (paddr : ℕ) :
    Prog.wp (commonMemoryRegionMap (watchFlags c) as mr paddr) (fun _ _ => True)
      (fun e => e ≠ .env none) s := by
  have hflags := regionPageFlags_wx h
  simp only [commonMemoryRegionMap, Prog.wp_bind, Prog.wp_assert]
  refine ⟨fun _ => ⟨fun _ => ⟨fun _ => ?_, ?_⟩, ?_⟩, ?_⟩
  · split_ifs
    · exact memoryRegionMapAllocate_watched hflags ..
    · exact memoryRegionMapExact_watched hflags ..
  all_goals exact fun _ => by simp

end Calls

/-! ## Whole runs -/

/-- The region structures, and the machine underneath. -/
structure FlagsRun (σ : Type) where
  m : AsMem
  env : σ

/-- One step of a run: the flags of the region `mr` are set, or it is mapped. -/
inductive FlagsStep (c : Cpu ε σ) (mr : ℕ) : FlagsRun σ → FlagsRun σ → Prop
  | setFlags {r : FlagsRun σ} {writable executable : BitVec 32}
      {res : Except AddressSpaceErr Unit} {m' : AsMem} :
      (commonMemoryRegionSetFlags mr writable executable : AsProg ε _).run r.m = .ok (res, m') →
      FlagsStep c mr r { r with m := m' }
  | map {r : FlagsRun σ} {as : AddressSpace} {paddr : ℕ} {res : Except AddressSpaceErr Unit}
      {e : σ} :
      (commonMemoryRegionMap (watchFlags c) as (r.m.region mr) paddr).run r.env = .ok (res, e) →
      FlagsStep c mr r { r with env := e }

/-- The states of a region that starts with both flags clear. -/
def FlagsReachable (c : Cpu ε σ) (mr : ℕ) : FlagsRun σ → Prop :=
  Reachable (fun r => (r.m.region mr).writable = false ∧ (r.m.region mr).executable = false)
    (FlagsStep c mr)

section Runs

variable {c : Cpu ε σ} {mr : ℕ} {r r' : FlagsRun σ}

lemma FlagsStep.not_both
    (h : ¬((r.m.region mr).writable = true ∧ (r.m.region mr).executable = true))
    (hs : FlagsStep c mr r r') :
    ¬((r'.m.region mr).writable = true ∧ (r'.m.region mr).executable = true) := by
  cases hs with
  | @setFlags writable executable res m' hrun =>
      rcases commonMemoryRegionSetFlags_run (ε := ε) mr writable executable r.m with
        hrefused | ⟨hwx, hset⟩
      · rw [hrefused, Except.ok.injEq, Prod.mk.injEq] at hrun
        rcases hrun with ⟨-, rfl⟩
        exact h
      · rw [hset, Except.ok.injEq, Prod.mk.injEq] at hrun
        rcases hrun with ⟨-, rfl⟩
        simp only [Function.update_self]
        exact setFlags_wx hwx
  | map hrun => exact h

lemma FlagsReachable.not_both (hr : FlagsReachable c mr r) :
    ¬((r.m.region mr).writable = true ∧ (r.m.region mr).executable = true) :=
  Reachable.invariant
    (I := fun r => ¬((r.m.region mr).writable = true ∧ (r.m.region mr).executable = true))
    (fun _ h hc => absurd (h.1.symm.trans hc.1) (by decide)) (fun _ _ h hs => hs.not_both h) hr

/-- **W^X over whole runs.**  In every state of a run of `set_flags` and `map` calls on a region
that starts with clear flags: the region is not both writable and executable; a call of `set_flags`
that returns `AS_INVALID` changes nothing; and no map asks the machine for a page that is both. -/
theorem w_xor_x (hr : FlagsReachable c mr r) :
    ¬((r.m.region mr).writable = true ∧ (r.m.region mr).executable = true) ∧
    (∀ writable executable m', (commonMemoryRegionSetFlags mr writable executable :
        AsProg ε _).run r.m = .ok (.error .invalid, m') → m' = r.m) ∧
    ∀ as paddr, (commonMemoryRegionMap (watchFlags c) as (r.m.region mr) paddr).run r.env
      ≠ .error (.env none) := by
  refine ⟨hr.not_both, ?_, ?_⟩
  · intro writable executable m' hrun
    rcases commonMemoryRegionSetFlags_run (ε := ε) mr writable executable r.m with
      hrefused | ⟨-, hset⟩
    · rw [hrefused, Except.ok.injEq, Prod.mk.injEq] at hrun
      exact hrun.2.symm
    · simp [hset] at hrun
  · intro as paddr hstop
    exact Prog.wp_stop (commonMemoryRegionMap_watched hr.not_both as paddr) hstop rfl

/-- A region of one page with both flags clear, at address 1. -/
def oneRegion : FlagsRun ℕ where
  m := { as := ⟨4096, []⟩, region := fun _ => ⟨4096, 4096, false, false⟩ }
  env := 1

/-- It is made writable by the number 3, which the fields cut to one bit, and is then not
executable. -/
theorem w_xor_x_one : ∃ r : FlagsRun ℕ, FlagsReachable pageByPage 1 r ∧
    (r.m.region 1).writable = true ∧
    ¬((r.m.region 1).writable = true ∧ (r.m.region 1).executable = true) := by
  have h₀ : FlagsReachable pageByPage 1 oneRegion := .base ⟨rfl, rfl⟩
  have hrun := Prog.run_after (x := (commonMemoryRegionSetFlags 1 3 4 : AsProg Empty _))
    (s := oneRegion.m) (a := .ok ()) rfl
  have h₁ := h₀.tail (.setFlags hrun)
  exact ⟨_, h₁, rfl, (w_xor_x h₁).1⟩

end Runs

end Akaris
