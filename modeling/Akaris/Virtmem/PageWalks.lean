import Akaris.Virtmem.CopyExact

/-!
# Walks one after the other

A `struct i686_pagewalk_context` serves for any number of walks through a page directory: its
window for the page table is pointed to another frame only when `pagestart` says that the page has
changed.  The walk without such a cache ends at `entryPlace`, the entry of the page in the table
that the page directory names, and `cached_walks_agree_iff` says when all walks of a sequence end
there.

**What carries it** is `Tracks`: `pagestart` is that of a page whose table is present and is the one
in the window.  Every walk leaves this behind, whether it finds the table or makes it, and a walk
that finds it ends at the right entry.  The walk that has nothing to rely on is the first one:
`i686_pagewalk_init` stores 0 to `pagestart`, which is the value for page 0, while the window was
not pointed to anything.
-/

namespace Akaris

variable {ρ : Type} {K : KernelImage} {L : Localmem ρ}

-- the rules are all that is used of it: computing it would run the program
attribute [local irreducible] Prog.wp

/-! ## The walk without a cache -/

/-- The page table entry of `v`, in the table that the page directory in frame `d` names. -/
def entryPlace (mem : PhysMem) (d v : ℕ) : ℕ × ℕ :=
  (Entry.physAddr.get (mem d (v / 2 ^ 22)), 4 * (v / 2 ^ 12 % 2 ^ 10))

/-- The frame of the table that entry `k` of the page directory in frame `d` names after a walk:
the present one, or the page that `localmem` hands out for it. -/
def tableOf (L : Localmem ρ) (s : Machine ρ) (d k : ℕ) : ℕ :=
  if Entry.present.get (s.mem d k) = 1 then Entry.physAddr.get (s.mem d k)
  else match (L.pageAlloc s.localmem).1 with
    | .ok address => address / 4096
    | .error _ => 0

/-- A walk for `addr` returned `entry`, and left the machine `after`. -/
structure Visit (ρ : Type) where
  addr : ℕ
  entry : ℕ
  after : Machine ρ

/-- The walks for the addresses `vs`, one after the other. -/
def walkEach (K : KernelImage) (L : Localmem ρ) (ctx : I686PagewalkContext) :
    List ℕ → MachineProg ρ (List (Visit ρ))
  | [] => pure []
  | v :: vs => do
      let (ctx, l) ← i686Pagewalk K L ctx v
      let s ← Prog.gets id
      let visits ← walkEach K L ctx vs
      return ⟨v, l, s⟩ :: visits

/-- The walk went to where the walk without a cache goes. -/
structure Visit.Agrees (K : KernelImage) (d : ℕ) (visit : Visit ρ) : Prop where
  present : Entry.present.get (visit.after.mem d (visit.addr / 2 ^ 22)) = 1
  reaches : Reaches K visit.after.mem visit.entry (entryPlace visit.after.mem d visit.addr)

/-- The walk for `v` gets the page and the window it needs, if it has to make a page table. -/
def AllocSucceeds (K : KernelImage) (L : Localmem ρ) (d : ℕ) (s : Machine ρ) (v : ℕ) : Prop :=
  Entry.present.get (s.mem d (v / 2 ^ 22)) = 0 →
    freeWindows K s.mem ≠ 0 ∧ ∃ address, (L.pageAlloc s.localmem).1 = .ok address

/-- All allocations of the walks for `vs` succeed. -/
def AllocsSucceed (K : KernelImage) (L : Localmem ρ) (d : ℕ) (ctx : I686PagewalkContext)
    (s : Machine ρ) : List ℕ → Prop
  | [] => True
  | v :: vs => AllocSucceeds K L d s v ∧
      ∀ ctx' l s', (i686Pagewalk K L ctx v).run s = .ok ((ctx', l), s') →
        AllocsSucceed K L d ctx' s' vs

/-! ## One walk -/

/-- `pagestart` of a context whose last walk was for `v`. -/
def pagestartOf (v : ℕ) : ℕ := wrap32 (v / 2 ^ 22 * (pgSize * 1024) + v / 2 ^ 12 % 2 ^ 10)

/-- A walk through the page directory in frame `d` is going on in the windows `i` and `j`. -/
structure Walking (K : KernelImage) (L : Localmem ρ) (d i j : ℕ) (ctx : I686PagewalkContext)
    (s : Machine ρ) : Prop where
  pt : ctx.pt = some (window i)
  pd : ctx.pd = some (window j)
  ne : i ≠ j
  table : ∃ f, Shows K s.mem i f
  directory : Shows K s.mem j d
  running : Running K s
  wipe : CanWipe K L s

/-- The window shows the page table of the page that `pagestart` stands for. -/
def Tracks (K : KernelImage) (d i : ℕ) (ctx : I686PagewalkContext) (s : Machine ρ) : Prop :=
  ∃ v < 2 ^ 32, ctx.pagestart = pagestartOf v ∧ Entry.present.get (s.mem d (v / 2 ^ 22)) = 1 ∧
    Shows K s.mem i (Entry.physAddr.get (s.mem d (v / 2 ^ 22)))

section Step

variable {s t : Machine ρ} {d i j v : ℕ} {ctx : I686PagewalkContext}

/-- The page directory index and the page table index are both in `pagestart`. -/
lemma pagestartOf_inj {v w : ℕ} (hv : v < 2 ^ 32) (hw : w < 2 ^ 32)
    (h : pagestartOf v = pagestartOf w) : v / 2 ^ 12 = w / 2 ^ 12 := by
  unfold pagestartOf wrap32 pgSize at h
  omega

lemma tableOf_present (h1 : Entry.present.get (s.mem d v) = 1) :
    tableOf L s d v = Entry.physAddr.get (s.mem d v) := if_pos h1

lemma tableOf_alloc (h0 : Entry.present.get (s.mem d v) = 0) {f : ℕ}
    (hr : (L.pageAlloc s.localmem).1 = .ok (f * 4096)) : tableOf L s d v = f := by
  have hne : ¬Entry.present.get (s.mem d v) = 1 := by
    rw [h0]
    exact zero_ne_one
  rw [tableOf, if_neg hne, hr]
  exact Nat.mul_div_cancel f (by norm_num)

/-- What a walk for `v` leaves behind, before it looks at its window for the page table. -/
structure Prepared (K : KernelImage) (L : Localmem ρ) (s : Machine ρ) (d k : ℕ) (s' : Machine ρ) :
    Prop where
  present : Entry.present.get (s'.mem d k) = 1
  frame : Entry.physAddr.get (s'.mem d k) = tableOf L s d k
  same : Entry.present.get (s.mem d k) = 1 → s' = s
  kept : ∀ n < 2 ^ 18, Entry.present.get (kernelFlatpt K s.mem n) = 1 →
    kernelFlatpt K s'.mem n = kernelFlatpt K s.mem n
  running : Running K s'
  wipe : CanWipe K L s'

/-- Making a page table succeeds if there is a page and a window. -/
lemma i686InitializePde_prepared (h : Walking K L d i j ctx s) (hd : ¬K.HoldsTable d)
    (hv : v < 2 ^ 32) (h0 : Entry.present.get (s.mem d (v / 2 ^ 22)) = 0)
    (halloc : AllocSucceeds K L d s v) :
    Prog.wp (i686InitializePde K L (window j + 4 * (v / 2 ^ 22)))
      (fun _ s' => Prepared K L s d (v / 2 ^ 22) s') (fun _ => False) s := by
  have hk : v / 2 ^ 22 < 1024 := by omega
  rcases halloc h0 with ⟨hwindows, address, haddress⟩
  refine Prog.wp_mono
    (i686InitializePde_opens (Opens.refl s) h.running h.directory hd hk h.wipe) ?_ fun _ he => he
  rintro _ s' ⟨⟨f, l, m, hf, hr, -, hopens⟩ | ⟨hfail, -⟩, hkept⟩
  · have hstep : PdeStep K L s d (v / 2 ^ 22) _ f 1 := .created h0 hf hr
    have hpde : s'.mem d (v / 2 ^ 22) = userPde f := by
      rw [hopens.outside hd]
      exact write_self
    refine ⟨?_, ?_, fun h1 => ?_, hkept, hopens.running (hstep.running h.running fun _ => h.wipe),
      fun f' hf' => ?_⟩
    · rw [hpde, present_userPde]
    · rw [hpde, physAddr_userPde (L.free_range _ f hf).2, tableOf_alloc h0 (congrArg Prod.fst hr)]
    · rw [h0] at h1
      exact absurd h1 zero_ne_one
    · have hfree : f' ∈ L.free (L.pageAlloc s.localmem).2 := by
        rw [hopens.localmem] at hf'
        rw [hr]
        exact hf'
      rw [hopens.cr3]
      exact h.wipe f' (L.pageAlloc_free hfree)
  · rcases hfail with ⟨e, he⟩ | hfull
    · rw [haddress] at he
      exact absurd he (by simp)
    · exact absurd hfull hwindows

/-- **A walk** for `v` leaves `pagestart` of `v` behind.  The window shows the page table if it was
pointed to it, and what it showed before if not. -/
structure Stepped (K : KernelImage) (L : Localmem ρ) (d i j : ℕ) (ctx : I686PagewalkContext)
    (s : Machine ρ) (v : ℕ) (r : I686PagewalkContext × ℕ) (s' : Machine ρ) : Prop where
  walking : Walking K L d i j r.1 s'
  pagestart : r.1.pagestart = pagestartOf v
  entry : r.2 = window i + 4 * (v / 2 ^ 12 % 2 ^ 10)
  present : Entry.present.get (s'.mem d (v / 2 ^ 22)) = 1
  frame : Entry.physAddr.get (s'.mem d (v / 2 ^ 22)) = tableOf L s d (v / 2 ^ 22)
  shows : pagestartOf v ≠ ctx.pagestart → Shows K s'.mem i (tableOf L s d (v / 2 ^ 22))
  same : pagestartOf v = ctx.pagestart → kernelFlatpt K s'.mem i = kernelFlatpt K s.mem i

/-- The second half of the walk, once there is a page directory entry. -/
lemma pointTable_wp {s₁ : Machine ρ} {start : ℕ}
    (h : Walking K L d i j ⟨start, some (window i), some (window j)⟩ s) (hd : ¬K.HoldsTable d)
    (hv : v < 2 ^ 32) (hprep : Prepared K L s d (v / 2 ^ 22) s₁) :
    Prog.wp
      (if pagestartOf v ≠ start then do
        let pde ← loadWord (window j + 4 * (v / 2 ^ 22))
        let _ ← i686KernelMapVirtToPhys K (wrap32 (Entry.physAddr.get pde * pgSize)) (window i)
        pure (⟨pagestartOf v, some (window i), some (window j)⟩,
          window i + 4 * (v / 2 ^ 12 % 2 ^ 10))
      else
        pure (⟨start, some (window i), some (window j)⟩, window i + 4 * (v / 2 ^ 12 % 2 ^ 10)))
      (Stepped K L d i j ⟨start, some (window i), some (window j)⟩ s v) (fun _ => False) s₁ := by
  rcases h.table with ⟨g, hg⟩
  have hk : v / 2 ^ 22 < 1024 := by omega
  have hsame : kernelFlatpt K s₁.mem i = kernelFlatpt K s.mem i := hprep.kept i hg.lt hg.present
  have hdir : Shows K s₁.mem j d :=
    h.directory.congr (hprep.kept j h.directory.lt h.directory.present)
  have hg₁ : Shows K s₁.mem i g := hg.congr hsame
  by_cases hkey : pagestartOf v = start
  · rw [if_neg (not_not.mpr hkey), Prog.wp_pure]
    exact ⟨⟨rfl, rfl, h.ne, ⟨g, hg₁⟩, hdir, hprep.running, hprep.wipe⟩, hkey.symm, rfl,
      hprep.present, hprep.frame, fun hne => absurd hkey hne, fun _ => hsame⟩
  · have hf : tableOf L s d (v / 2 ^ 22) < 2 ^ 20 := by
      rw [← hprep.frame]
      exact Field.get_lt _ _
    have hframe : wrap32 (tableOf L s d (v / 2 ^ 22) * pgSize) / 4096 % 2 ^ 20
        = tableOf L s d (v / 2 ^ 22) := by
      unfold wrap32 pgSize
      omega
    have hrun := i686KernelMapVirtToPhys_run hg₁.lt hg₁.present
      (wrap32 (tableOf L s d (v / 2 ^ 22) * pgSize))
    rw [if_pos hkey, Prog.wp_bind, Prog.wp_of_run (loadWord_run hprep.running hdir hk),
      Prog.wp_bind, hprep.frame, Prog.wp_of_run hrun, Prog.wp_pure]
    have hshows : Shows K (setKernelFlatpt K s₁.mem i (windowPte (kernelFlatpt K s₁.mem i)
        (wrap32 (tableOf L s d (v / 2 ^ 22) * pgSize)))) i (tableOf L s d (v / 2 ^ 22)) := by
      refine ⟨hg₁.lt, ?_, ?_⟩
      · rw [setKernelFlatpt_self, present_windowPte]
      · rw [setKernelFlatpt_self, physAddr_windowPte, hframe]
    have hpde : ∀ x, setKernelFlatpt K s₁.mem i x d (v / 2 ^ 22) = s₁.mem d (v / 2 ^ 22) :=
      fun x => setKernelFlatpt_outside hg₁.lt hd
    exact ⟨⟨rfl, rfl, h.ne, ⟨_, hshows⟩, hdir.congr (setKernelFlatpt_of_ne h.ne.symm),
      hprep.running.congr fun w => setKernelFlatpt_outside hg₁.lt hprep.running.apart,
      hprep.wipe⟩, rfl, rfl, (congrArg Entry.present.get (hpde _)).trans hprep.present,
      (congrArg Entry.physAddr.get (hpde _)).trans hprep.frame, fun _ => hshows,
      fun heq => absurd heq hkey⟩

/-- **The step lemma.** -/
lemma i686Pagewalk_stepped (h : Walking K L d i j ctx s) (hd : ¬K.HoldsTable d) (hv : v < 2 ^ 32)
    (halloc : AllocSucceeds K L d s v) :
    Prog.wp (i686Pagewalk K L ctx v) (Stepped K L d i j ctx s v) (fun _ => False) s := by
  have hk : v / (pgSize * 1024) = v / 2 ^ 22 := rfl
  have hptindex : v % (pgSize * 1024) / pgSize = v / 2 ^ 12 % 2 ^ 10 := by
    rw [pgSize]
    omega
  have hk' : v / 2 ^ 22 < 1024 := by omega
  rcases ctx with ⟨start, pt, pd⟩
  obtain rfl : pt = some (window i) := h.pt
  obtain rfl : pd = some (window j) := h.pd
  rw [i686Pagewalk]
  simp only [hk, hptindex, readVar, pure_bind]
  rw [Prog.wp_bind, Prog.wp_of_run (loadWord_run h.running h.directory hk')]
  rcases present_cases (s.mem d (v / 2 ^ 22)) with h0 | h1
  · rw [if_pos h0, Prog.wp_bind]
    refine Prog.wp_mono (i686InitializePde_prepared h hd hv h0 halloc) ?_ fun _ he => he
    rintro _ s₁ hprep
    exact pointTable_wp h hd hv hprep
  · rw [if_neg (by rw [h1]; exact one_ne_zero)]
    exact pointTable_wp h hd hv
      ⟨h1, (tableOf_present h1).symm, fun _ => rfl, fun _ _ _ => rfl, h.running, h.wipe⟩

/-- A walk goes to the right entry when its window shows the table. -/
lemma Stepped.agrees_iff {r : I686PagewalkContext × ℕ} {s' : Machine ρ}
    (h : Stepped K L d i j ctx s v r s') :
    Visit.Agrees K d ⟨v, r.2, s'⟩ ↔ Shows K s'.mem i (tableOf L s d (v / 2 ^ 22)) := by
  have hplace : entryPlace s'.mem d v
      = (tableOf L s d (v / 2 ^ 22), 4 * (v / 2 ^ 12 % 2 ^ 10)) := by rw [entryPlace, h.frame]
  have hoffset : 4 * (v / 2 ^ 12 % 2 ^ 10) < 4096 := by omega
  refine ⟨fun hagrees => ?_, fun hshows => ⟨h.present, ?_⟩⟩
  · rcases hagrees.reaches with ⟨n, hn, -, heq⟩
    simp only [hplace, h.entry] at hn heq
    rwa [window_inj (Nat.add_right_cancel heq)]
  · simp only [hplace, h.entry]
    exact hshows.reaches hoffset

lemma Stepped.tracks {r : I686PagewalkContext × ℕ} {s' : Machine ρ}
    (h : Stepped K L d i j ctx s v r s') (hv : v < 2 ^ 32)
    (hshows : Shows K s'.mem i (tableOf L s d (v / 2 ^ 22))) : Tracks K d i r.1 s' :=
  ⟨v, hv, h.pagestart, h.present, by rwa [h.frame]⟩

/-- **A walk that can rely on its window** shows the table, whether the window is remapped or
not. -/
lemma Stepped.shows_of_tracks {r : I686PagewalkContext × ℕ} {s' : Machine ρ}
    (h : Stepped K L d i j ctx s v r s') (hv : v < 2 ^ 32) (htracks : Tracks K d i ctx s) :
    Shows K s'.mem i (tableOf L s d (v / 2 ^ 22)) := by
  by_cases hkey : pagestartOf v = ctx.pagestart
  · rcases htracks with ⟨w, hw, hstart, h1, hshows⟩
    have hpage : v / 2 ^ 12 = w / 2 ^ 12 := pagestartOf_inj hv hw (hkey.trans hstart)
    have hk : v / 2 ^ 22 = w / 2 ^ 22 := by omega
    rw [hk, tableOf_present h1]
    exact hshows.congr (h.same hkey)
  · exact h.shows hkey

end Step

/-! ## All walks -/

section Runs

variable {s t : Machine ρ} {d i j v : ℕ} {ctx : I686PagewalkContext} {vs : List ℕ}

/-- **The run lemma.**  All walks return, and they all agree if the first one has a window that it
can rely on. -/
lemma walkEach_wp (hd : ¬K.HoldsTable d) (h : Walking K L d i j ctx s)
    (hvs : ∀ v ∈ vs, v < 2 ^ 32) (halloc : AllocsSucceed K L d ctx s vs) :
    Prog.wp (walkEach K L ctx vs)
      (fun visits _ => visits.map Visit.addr = vs ∧
        (Tracks K d i ctx s → ∀ visit ∈ visits, visit.Agrees K d))
      (fun _ => False) s := by
  induction vs generalizing ctx s with
  | nil => exact (Prog.wp_pure _).mpr ⟨rfl, by simp⟩
  | cons v vs ih =>
      have hv := hvs v (List.mem_cons_self ..)
      rw [walkEach, Prog.wp_bind]
      refine Prog.wp_mono (Prog.wp_and (i686Pagewalk_stepped h hd hv halloc.1) (Prog.wp_self _ _))
        ?_ fun _ he => he.1
      rintro ⟨ctx', l⟩ s' ⟨hstep, hrun⟩
      rw [Prog.wp_bind, Prog.wp_gets, Prog.wp_bind]
      refine Prog.wp_mono (ih hstep.walking (fun w hw => hvs w (List.mem_cons_of_mem v hw))
        (halloc.2 _ _ _ hrun)) ?_ fun _ he => he
      rintro visits _ ⟨haddrs, hagree⟩
      refine (Prog.wp_pure _).mpr
        ⟨congrArg (v :: ·) haddrs, fun htracks visit hvisit => ?_⟩
      have hshows := hstep.shows_of_tracks hv htracks
      rcases List.mem_cons.mp hvisit with rfl | hvisit
      · exact hstep.agrees_iff.mpr hshows
      · exact hagree (hstep.tracks hv hshows) visit hvisit

/-- A walk that was set up is going on. -/
lemma WalkReady.walking (h : WalkReady K t d ctx i j s) (hrun : Running K t)
    (hwipe : CanWipe K L t) : Walking K L d i j ctx s := by
  have hi : i ∈ ({j, i} : Finset ℕ) := Finset.mem_insert_of_mem (Finset.mem_singleton_self i)
  rcases h with ⟨rfl, hij, hopens, hshows, -⟩
  refine ⟨rfl, rfl, hij, ⟨_, (hopens.mem.fresh i hi).1, hopens.mem.opened i hi, rfl⟩, hshows,
    hopens.running hrun, fun f hf => ?_⟩
  rw [hopens.localmem] at hf
  rw [hopens.cr3]
  exact hwipe f hf

/-- The page that `pagestart` is for before the first walk. -/
lemma pagestartOf_eq_zero_iff (hv : v < 2 ^ 32) : pagestartOf v = 0 ↔ v < 4096 := by
  unfold pagestartOf wrap32 pgSize
  omega

/-- The window of the page table, as it was taken, shows the table for page 0. -/
def ShowsFirstTable (K : KernelImage) (L : Localmem ρ) (d : ℕ) (ctx : I686PagewalkContext)
    (s : Machine ρ) : Prop :=
  ∃ i, ctx.pt = some (window i) ∧ Shows K s.mem i (tableOf L s d 0)

/-- **The first walk** keeps the window as it was taken if it is for page 0. -/
lemma Stepped.first_iff {r : I686PagewalkContext × ℕ} {s' : Machine ρ}
    (h : Stepped K L d i j ctx s v r s') (hv : v < 2 ^ 32) (hstart : ctx.pagestart = 0)
    (hpt : ctx.pt = some (window i)) :
    Shows K s'.mem i (tableOf L s d (v / 2 ^ 22)) ↔
      (v < 4096 → ShowsFirstTable K L d ctx s) := by
  by_cases hzero : v < 4096
  · have hkey : pagestartOf v = ctx.pagestart := by
      rw [hstart, (pagestartOf_eq_zero_iff hv).mpr hzero]
    have hk : v / 2 ^ 22 = 0 := by omega
    rw [hk]
    refine ⟨fun hshows _ => ⟨i, hpt, hshows.congr (h.same hkey).symm⟩, fun hshows => ?_⟩
    rcases hshows hzero with ⟨n, hn, hshows⟩
    rw [hpt] at hn
    obtain rfl : i = n := window_inj (Option.some.inj hn)
    exact hshows.congr (h.same hkey)
  · have hkey : pagestartOf v ≠ ctx.pagestart := by
      rw [hstart]
      exact fun h => hzero ((pagestartOf_eq_zero_iff hv).mp h)
    exact ⟨fun _ h => absurd h hzero, fun _ => h.shows hkey⟩

/-- **The cached walk agrees with the walk without a cache**, in all walks of a sequence, if and
only if the first one is not for page 0, or the window that was taken for the page table happens to
show the right table. -/
theorem cached_walks_agree_iff {c : ℕ} (hrun : Running K t) (hwipe : CanWipe K L t)
    (hd : ¬K.HoldsTable (c / 4096 % 2 ^ 20))
    (hinit : (i686PagewalkInit K c).run t = .ok ((0, ctx), s)) (hvs : ∀ v ∈ vs, v < highstart)
    (halloc : AllocsSucceed K L (c / 4096 % 2 ^ 20) ctx s vs) :
    ∃ visits s', (walkEach K L ctx vs).run s = .ok (visits, s') ∧ visits.map Visit.addr = vs ∧
      ((∀ visit ∈ visits, visit.Agrees K (c / 4096 % 2 ^ 20)) ↔
        ∀ v, vs.head? = some v → v < 4096 → ShowsFirstTable K L (c / 4096 % 2 ^ 20) ctx s) := by
  obtain ⟨d, hdir⟩ : ∃ d, d = c / 4096 % 2 ^ 20 := ⟨_, rfl⟩
  rw [← hdir] at hd halloc ⊢
  have hvs' : ∀ v ∈ vs, v < 2 ^ 32 := by
    intro v hv
    have hlt := hvs v hv
    unfold highstart at hlt
    omega
  have hready : ∃ i j, WalkReady K t d ctx i j s := by
    rw [hdir]
    rcases Prog.wp_run (i686PagewalkInit_wp t c) hinit with ⟨-, i, j, hready⟩ | ⟨herr, -⟩
    · exact ⟨i, j, hready⟩
    · exact absurd herr (by norm_num)
  rcases hready with ⟨i, j, hready⟩
  have hstart : ctx.pagestart = 0 := by rw [hready.ctx]
  have hpt : ctx.pt = some (window i) := by rw [hready.ctx]
  have hwalking := hready.walking hrun hwipe
  cases vs with
  | nil => exact ⟨[], s, rfl, rfl, by simp⟩
  | cons v vs =>
      have hv := hvs' v (List.mem_cons_self ..)
      -- the first walk has nothing to rely on; the others rely on what it left
      rcases Prog.wp_returns (i686Pagewalk_stepped hwalking hd hv halloc.1) with
        ⟨⟨ctx', l⟩, s', hrun', hstep⟩
      rcases Prog.wp_returns (walkEach_wp hd hstep.walking
        (fun w hw => hvs' w (List.mem_cons_of_mem v hw)) (halloc.2 _ _ _ hrun')) with
        ⟨visits, s'', hrun'', haddrs, hrest⟩
      have hfirst := hstep.first_iff hv hstart hpt
      refine ⟨⟨v, l, s'⟩ :: visits, s'', ?_, congrArg (v :: ·) haddrs, fun hagree w hw hzero => ?_,
        fun hcond visit hvisit => ?_⟩
      · rw [walkEach, Prog.run_bind_ok hrun', Prog.run_bind_gets]
        exact Prog.run_bind_ok hrun''
      · obtain rfl : v = w := Option.some.inj hw
        exact hfirst.mp (hstep.agrees_iff.mp (hagree _ (List.mem_cons_self ..))) hzero
      · have hshows := hfirst.mpr (hcond v rfl)
        rcases List.mem_cons.mp hvisit with rfl | hvisit
        · exact hstep.agrees_iff.mpr hshows
        · exact hrest (hstep.tracks hv hshows) visit hvisit

/-- Walks through a table that is there need no allocation. -/
lemma allocsSucceed_of_present {k : ℕ} (hd : ¬K.HoldsTable d) (h : Walking K L d i j ctx s)
    (h1 : Entry.present.get (s.mem d k) = 1) (hvs : ∀ v ∈ vs, v < 2 ^ 32 ∧ v / 2 ^ 22 = k) :
    AllocsSucceed K L d ctx s vs := by
  induction vs generalizing ctx s with
  | nil => trivial
  | cons v vs ih =>
      have hv := hvs v (List.mem_cons_self ..)
      have halloc : AllocSucceeds K L d s v := by
        intro h0
        rw [hv.2, h1] at h0
        exact absurd h0 one_ne_zero
      refine ⟨halloc, fun ctx' l s' hrun => ?_⟩
      have hstep := Prog.wp_run (i686Pagewalk_stepped h hd hv.1 halloc) hrun
      have hpresent := hstep.present
      rw [hv.2] at hpresent
      exact ih hstep.walking hpresent fun w hw => hvs w (List.mem_cons_of_mem v hw)

end Runs

/-! ## A walk on the machine of the copies -/

lemma copyMachine_canWipe : CanWipe smallImage noLocalmem copyMachine := fun _ hf => hf.elim

/-- A walk can be set up there. -/
lemma copyMachine_walk : ∃ ctx s i j,
    (i686PagewalkInit smallImage 1228800).run copyMachine = .ok ((0, ctx), s) ∧
      WalkReady smallImage copyMachine (1228800 / 4096 % 2 ^ 20) ctx i j s := by
  rcases Prog.wp_returns (i686PagewalkInit_wp copyMachine 1228800) with
    ⟨⟨err, ctx⟩, s, hrun, ⟨herr, i, j, hready⟩ | ⟨-, W, hfailed⟩⟩
  · obtain rfl : err = 0 := herr
    exact ⟨ctx, s, i, j, hrun, hready⟩
  · have hfew := hfailed.few
    have hfull := hfailed.full
    have hfree := copyMachine_freeWindows
    omega

/-- The pages below 4 MiB have a page table there. -/
lemma copyMachine_allocs {ctx : I686PagewalkContext} {i j : ℕ} {s : Machine Unit} {vs : List ℕ}
    (hready : WalkReady smallImage copyMachine (1228800 / 4096 % 2 ^ 20) ctx i j s)
    (hvs : ∀ v ∈ vs, v < 2 ^ 32 ∧ v / 2 ^ 22 = 0) :
    AllocsSucceed smallImage noLocalmem (1228800 / 4096 % 2 ^ 20) ctx s vs := by
  have hdir : ¬smallImage.HoldsTable (1228800 / 4096 % 2 ^ 20) :=
    (copyMachine_plain (by norm_num)).notTable
  refine allocsSucceed_of_present hdir
    (hready.walking copyMachine_running copyMachine_canWipe) ?_ hvs
  rw [hready.opens.outside hdir]
  decide +kernel

/-- What is not a kernel page there points to frame 0. -/
lemma copyMachine_stale {i : ℕ} (hi : i < 2 ^ 18)
    (h0 : Entry.present.get (kernelFlatpt smallImage copyMachine.mem i) = 0) :
    Entry.physAddr.get (kernelFlatpt smallImage copyMachine.mem i) = 0 := by
  by_cases hpage : i = 5 ∨ i = 6
  · -- the kernel pages are present
    rcases hpage with rfl | rfl <;> exact absurd h0 (by decide +kernel)
  · rw [not_or] at hpage
    rw [copyMachine_kernelFlatpt hi hpage.1 hpage.2, Field.get_zero]

/-- Walks for page 2, page 0 and page 2 again. -/
theorem cached_walks_agree_three : ∃ ctx s visits s',
    (i686PagewalkInit smallImage 1228800).run copyMachine = .ok ((0, ctx), s) ∧
      (walkEach smallImage noLocalmem ctx [8192, 0, 8195]).run s = .ok (visits, s') ∧
      visits.map Visit.addr = [8192, 0, 8195] ∧
      ∀ visit ∈ visits, visit.Agrees smallImage (1228800 / 4096 % 2 ^ 20) := by
  rcases copyMachine_walk with ⟨ctx, s, i, j, hinit, hready⟩
  have halloc : AllocsSucceed smallImage noLocalmem (1228800 / 4096 % 2 ^ 20) ctx s
      [8192, 0, 8195] := copyMachine_allocs hready (by decide)
  rcases cached_walks_agree_iff copyMachine_running copyMachine_canWipe
    (copyMachine_plain (by norm_num)).notTable hinit (by decide) halloc with
    ⟨visits, s', hrun, haddrs, hagree⟩
  refine ⟨ctx, s, visits, s', hinit, hrun, haddrs, hagree.mpr fun v hv hzero => ?_⟩
  obtain rfl : 8192 = v := Option.some.inj hv
  exact absurd hzero (by norm_num)

/-- A walk for page 0 that goes to a table of nobody: the window still shows frame 0. -/
theorem first_walk_not_remapped : ∃ ctx s visits s',
    (i686PagewalkInit smallImage 1228800).run copyMachine = .ok ((0, ctx), s) ∧
      AllocsSucceed smallImage noLocalmem (1228800 / 4096 % 2 ^ 20) ctx s [0] ∧
      (walkEach smallImage noLocalmem ctx [0]).run s = .ok (visits, s') ∧
      ¬∀ visit ∈ visits, visit.Agrees smallImage (1228800 / 4096 % 2 ^ 20) := by
  rcases copyMachine_walk with ⟨ctx, s, i, j, hinit, hready⟩
  have hdir : ¬smallImage.HoldsTable (1228800 / 4096 % 2 ^ 20) :=
    (copyMachine_plain (by norm_num)).notTable
  have halloc : AllocsSucceed smallImage noLocalmem (1228800 / 4096 % 2 ^ 20) ctx s [0] :=
    copyMachine_allocs hready (by decide)
  rcases Prog.wp_returns (i686Pagewalk_stepped
    (hready.walking copyMachine_running copyMachine_canWipe) hdir (by norm_num) halloc.1) with
    ⟨⟨ctx', l⟩, s', hrun, hstep⟩
  refine ⟨ctx, s, [⟨0, l, s'⟩], s', hinit, halloc, ?_, fun hagree => ?_⟩
  · rw [walkEach, Prog.run_bind_ok hrun, Prog.run_bind_gets]
    rfl
  · have hstart : ctx.pagestart = 0 := by rw [hready.ctx]
    have hkey : pagestartOf 0 = ctx.pagestart := by
      rw [hstart]
      rfl
    have hi : i ∈ ({j, i} : Finset ℕ) := Finset.mem_insert_of_mem (Finset.mem_singleton_self i)
    have hfresh := hready.opens.mem.fresh i hi
    have hshows := hstep.agrees_iff.mp (hagree _ (List.mem_singleton_self _))
    have hframe := hshows.frame
    have hpde : s.mem (1228800 / 4096 % 2 ^ 20) (0 / 2 ^ 22) = userPde 301 :=
      hready.opens.outside hdir
    have htable : tableOf noLocalmem s (1228800 / 4096 % 2 ^ 20) (0 / 2 ^ 22) = 301 := by
      rw [tableOf_present (by rw [hpde, present_userPde]), hpde, physAddr_userPde (by norm_num)]
    rw [hstep.same hkey, hready.stale, copyMachine_stale hfresh.1 hfresh.2, htable] at hframe
    exact absurd hframe (by norm_num)

end Akaris
