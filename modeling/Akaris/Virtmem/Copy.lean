import Akaris.Virtmem.Failures

/-!
# Copying between kernel and user memory

`common/virtmem.c`: `copy_user_to_kernel` and `copy_kernel_to_user` go through the user range page by
page.  Each page is looked up with `user_get_page` and shown in one kernel page, the mapping, through
which `memcpy` reads or writes as much of it as belongs to the range.  `copyAlt` is the loop, which
the two directions share; the results of `kernel_alloc`, `user_get_page` and
`kernel_map_virt_to_phys` are dropped.

* **`copy_refuses_iff`** — a copy does what it should with a range that it cannot copy exactly when
  there is no such thing: it never returns an error.
-/

namespace Akaris

variable {ε σ ρ : Type} {K : KernelImage} {L : Localmem ρ}

-- the rules are all that is used of it: computing it would run the program
attribute [local irreducible] Prog.wp

/-- Read a variable of the common code. -/
def readStored (x : Option ℕ) : Prog (AsFault ε) σ ℕ :=
  match x with
  | none => Prog.fault .uninitialised
  | some v => pure v

/-- What a call stored to its result variable, if it succeeded. -/
def storeOk (r : Except VirtmemError ℕ) (x : Option ℕ) : Option ℕ :=
  match r with
  | .ok v => some v
  | .error _ => x

/-- How much of the page that the user address `addr` is in gets copied.  `minl` compares signed
numbers. -/
def copyLength (pgsize addr len : ℕ) : ℤ :=
  min (toLong len) (toLong (sub32 pgsize (addr % pgsize)))

/-- `copy_partial_page_from_user`. -/
def copyPartialPageFromUser (c : Cpu ε σ) (dst src mapping len : ℕ) : Prog ε σ ℤ := do
  let pgsize := c.physmemPageSize
  let copylen := copyLength pgsize src len
  c.memcpy dst (wrap32 (src % pgsize + mapping)) (ofLong copylen)
  return copylen

/-- `copy_partial_page_to_user`. -/
def copyPartialPageToUser (c : Cpu ε σ) (dst src mapping len : ℕ) : Prog ε σ ℤ := do
  let pgsize := c.physmemPageSize
  let copylen := copyLength pgsize dst len
  c.memcpy (wrap32 (dst % pgsize + mapping)) src (ofLong copylen)
  return copylen

/-- The loop of `copy_alt_user_to_kernel` and `copy_alt_user_from_kernel`, which differ in which of
the two addresses is the user's and in how a page is copied.  Every iteration copies something, so
`len` iterations are enough. -/
def copyAlt (c : Cpu ε σ) (ctx : ℕ) (user : ℕ → ℕ → ℕ) (copyPage : ℕ → ℕ → ℕ → ℕ → Prog ε σ ℤ)
    (mapping : Option ℕ) :
    (iterations dst src len : ℕ) → (phys : Option ℕ) → Prog (AsFault ε) σ Unit
  | 0, _, _, _, _ => pure ()
  | n + 1, dst, src, len, phys =>
      if len = 0 then pure ()
      else do
        let r ← callVirtmem (c.virtmemUserGetPage ctx (user dst src))
        let phys := storeOk r phys
        let p ← readStored phys
        let m ← readStored mapping
        let _ ← callVirtmem (c.virtmemKernelMapVirtToPhys p m)
        let amtCopied ← callVirtmem (copyPage dst src m len)
        copyAlt c ctx user copyPage mapping n (wrap32 (dst + ofLong amtCopied))
          (wrap32 (src + ofLong amtCopied)) (sub32 len (ofLong amtCopied)) phys

/-- `copy_alt_user_to_kernel`. -/
def copyAltUserToKernel (c : Cpu ε σ) (dst srcCtx src len : ℕ) :
    Prog (AsFault ε) σ (Except VirtmemError Unit) := do
  let r ← callVirtmem (c.virtmemKernelAlloc 1)
  let mapping := storeOk r none
  copyAlt c srcCtx (fun _ src => src) (copyPartialPageFromUser c) mapping len dst src len none
  let m ← readStored mapping
  let _ ← callVirtmem (c.virtmemKernelFree m)
  return .ok ()

/-- `copy_alt_user_from_kernel`. -/
def copyAltUserFromKernel (c : Cpu ε σ) (dstCtx dst src len : ℕ) :
    Prog (AsFault ε) σ (Except VirtmemError Unit) := do
  let r ← callVirtmem (c.virtmemKernelAlloc 1)
  let mapping := storeOk r none
  copyAlt c dstCtx (fun dst _ => dst) (copyPartialPageToUser c) mapping len dst src len none
  let m ← readStored mapping
  let _ ← callVirtmem (c.virtmemKernelFree m)
  return .ok ()

/-- `common_virtmem_copy_user_to_kernel`. -/
def commonVirtmemCopyUserToKernel (c : Cpu ε σ) (dst srcCtx src len : ℕ) :
    Prog (AsFault ε) σ (Except VirtmemError Unit) := copyAltUserToKernel c dst srcCtx src len

/-- `common_virtmem_copy_kernel_to_user`. -/
def commonVirtmemCopyKernelToUser (c : Cpu ε σ) (dstCtx dst src len : ℕ) :
    Prog (AsFault ε) σ (Except VirtmemError Unit) := copyAltUserFromKernel c dstCtx dst src len

/-! ## Copies that cannot be made -/

/-- The user address `v` of the context in frame `d` is mapped to frame `f`, open to user mode. -/
def OpensTo (mem : PhysMem) (d v f : ℕ) : Prop :=
  ∃ t, mmuTranslate mem d v = some t ∧ t.user = true ∧ t.frame = f

/-- The number of pages in a range. -/
def pagesIn (u len : ℕ) : ℕ := if len = 0 then 0 else (u % 4096 + len - 1) / 4096 + 1

/-- **A range that cannot be copied**: some address of it is not open to user mode, or the kernel
pages for the mapping and the lookups are not there. -/
def CopyUnavailable (K : KernelImage) (s : Machine ρ) (c u len : ℕ) : Prop :=
  (∃ i < len, ¬∃ f, OpensTo s.mem (c / 4096 % 2 ^ 20) (wrap32 (u + i)) f) ∨
    freeWindows K s.mem < 1 + 2 * pagesIn u len

/-- A frame that the range has. -/
def InRange (s : Machine ρ) (c u len f : ℕ) : Prop :=
  ∃ i < len, OpensTo s.mem (c / 4096 % 2 ^ 20) (wrap32 (u + i)) f

/-- A refused copy to the user writes to frames of the range only. -/
def RefusesToUser (K : KernelImage) (L : Localmem ρ) (s : Machine ρ) (c u src len : ℕ) : Prop :=
  CopyUnavailable K s c u len →
    ∃ e s', (commonVirtmemCopyKernelToUser (i686Cpu K L) c u src len).run s = .ok (.error e, s') ∧
      ∀ f w, ¬K.HoldsTable f → s'.mem f w ≠ s.mem f w → InRange s c u len f

/-- A refused copy from the user writes to the kernel's buffer only, and only bytes of frames of the
range. -/
def RefusesToKernel (K : KernelImage) (L : Localmem ρ) (s : Machine ρ) (c dst u len : ℕ) : Prop :=
  CopyUnavailable K s c u len →
    ∃ e s', (commonVirtmemCopyUserToKernel (i686Cpu K L) dst c u len).run s = .ok (.error e, s') ∧
      ∀ f o, ¬K.HoldsTable f → o < 4096 → s'.mem.byte f o ≠ s.mem.byte f o →
        (∃ i < len, ∃ t, mmuTranslate s.mem (s.cr3 / 4096) (wrap32 (dst + i)) = some t ∧
          t.frame = f ∧ wrap32 (dst + i) % 4096 = o) ∧
        ∃ i < len, ∃ g, OpensTo s.mem (c / 4096 % 2 ^ 20) (wrap32 (u + i)) g ∧
          s'.mem.byte f o = s.mem.byte g (wrap32 (u + i) % 4096)

section Refused

variable {s : Machine ρ} {c dst src u len : ℕ}

/-- What the two directions have in common: whatever happens on the way, the last statement returns
success. -/
lemma copy_wp {α β γ : Type} (x : Prog (AsFault ε) σ α) (y : α → Prog (AsFault ε) σ β)
    (z : α → Prog (AsFault ε) σ γ) (w : γ → Prog (AsFault ε) σ (Except VirtmemError Unit)) (s : σ) :
    Prog.wp (do
      let r ← x
      let _ ← y r
      let m ← z r
      let _ ← w m
      return (.ok () : Except VirtmemError Unit)) (fun r _ => r = .ok ()) (fun _ => True) s := by
  rw [Prog.wp_bind]
  refine Prog.wp_mono (Prog.wp_any x s) ?_ fun _ _ => trivial
  rintro r s₁ -
  rw [Prog.wp_bind]
  refine Prog.wp_mono (Prog.wp_any _ s₁) ?_ fun _ _ => trivial
  rintro _ s₂ -
  rw [Prog.wp_bind]
  refine Prog.wp_mono (Prog.wp_any _ s₂) ?_ fun _ _ => trivial
  rintro m s₃ -
  rw [Prog.wp_bind]
  refine Prog.wp_mono (Prog.wp_any _ s₃) ?_ fun _ _ => trivial
  rintro _ s₄ -
  exact (Prog.wp_pure _).mpr rfl

/-- **A copy never returns an error.** -/
lemma commonVirtmemCopyUserToKernel_wp (cpu : Cpu ε σ) (dst c u len : ℕ) (s : σ) :
    Prog.wp (commonVirtmemCopyUserToKernel cpu dst c u len) (fun r _ => r = .ok ())
      (fun _ => True) s := copy_wp _ _ _ _ s

lemma commonVirtmemCopyKernelToUser_wp (cpu : Cpu ε σ) (c u src len : ℕ) (s : σ) :
    Prog.wp (commonVirtmemCopyKernelToUser cpu c u src len) (fun r _ => r = .ok ())
      (fun _ => True) s := copy_wp _ _ _ _ s

/-- **No copy is refused.**  So a range that cannot be copied is not refused, and the copies that do
as they should are those of ranges that can be. -/
theorem copy_refuses_iff (K : KernelImage) (L : Localmem ρ) (s : Machine ρ)
    (c dst src u len : ℕ) :
    (RefusesToUser K L s c u src len ↔ ¬CopyUnavailable K s c u len) ∧
    (RefusesToKernel K L s c dst u len ↔ ¬CopyUnavailable K s c u len) := by
  refine ⟨⟨?_, ?_⟩, ⟨?_, ?_⟩⟩
  · intro h hun
    rcases h hun with ⟨e, s', hrun, -⟩
    have hok := Prog.wp_run (commonVirtmemCopyKernelToUser_wp _ c u src len s) hrun
    exact absurd hok (by simp)
  · intro havail hun
    exact absurd hun havail
  · intro h hun
    rcases h hun with ⟨e, s', hrun, -⟩
    have hok := Prog.wp_run (commonVirtmemCopyUserToKernel_wp _ dst c u len s) hrun
    exact absurd hok (by simp)
  · intro havail hun
    exact absurd hun havail

end Refused

/-- **A range that is not mapped at all** is not refused, in either direction. -/
theorem unmapped_range_not_refused :
    ¬RefusesToUser smallImage noLocalmem smallMachine 4096 8192 highstart 1 ∧
    ¬RefusesToKernel smallImage noLocalmem smallMachine 4096 highstart 8192 1 := by
  have hun : CopyUnavailable smallImage smallMachine 4096 8192 1 := by
    refine Or.inl ⟨0, Nat.one_pos, ?_⟩
    rintro ⟨f, t, ht, -⟩
    have hnone : mmuTranslate smallMachine.mem (4096 / 4096 % 2 ^ 20) (wrap32 (8192 + 0)) = none := by
      decide +kernel
    rw [hnone] at ht
    exact absurd ht (by simp)
  refine ⟨fun h => ?_, fun h => ?_⟩
  · rcases h hun with ⟨e, s', hrun, -⟩
    have hok := Prog.wp_run (commonVirtmemCopyKernelToUser_wp _ 4096 8192 highstart 1 smallMachine) hrun
    exact absurd hok (by simp)
  · rcases h hun with ⟨e, s', hrun, -⟩
    have hok := Prog.wp_run (commonVirtmemCopyUserToKernel_wp _ highstart 4096 8192 1 smallMachine) hrun
    exact absurd hok (by simp)

end Akaris
