import Akaris.Virtmem.Brk
import Akaris.Virtmem.Spaces

/-!
# From the loader to the first address space

`setup_tables` of `loader/loader.c` runs without paging.  It clears `kernel_pts`, enters the first of
the tables into `kernel_pd` twice, at the bottom of the address space and at `highstart`, maps the
first 4 MiB to themselves in it and turns paging on.  `i686_virtmem_init` then fills in the kernel
half of `kernel_pd`, through the very mapping that it extends, and maps the kernel up to `ebss`.

What is known of memory before is nothing.  The image, that is `kernel_pd`, `kernel_pts` and `ebss`,
has to lie in the first 4 MiB: `KernelImage.Low`.

* **`virtmem_init_run`** — `i686_virtmem_init` does not fault, and after it and any calls of `brk`
  the machine is one that address spaces can be made on.
* **`kernel_stays_mapped`** — from then on, in every run and in every address space, the kernel
  addresses below the limit are mapped to themselves minus `highstart`.
-/

namespace Akaris

variable {ρ : Type} {K : KernelImage} {L : Localmem ρ}

-- the rules are all that is used of it: computing it would run the program
attribute [local irreducible] Prog.wp

/-! ## The loader -/

/-- The inner loop that clears a page table, `n` entries from `j` on. -/
def clearEntries (f : ℕ) : (n j : ℕ) → PhysMem → PhysMem
  | 0, _, mem => mem
  | n + 1, j, mem => clearEntries f n (j + 1) (mem.write f j 0)

/-- The outer loop, `n` tables from `i` on. -/
def clearTables (K : KernelImage) : (n i : ℕ) → PhysMem → PhysMem
  | 0, _, mem => mem
  | n + 1, i, mem => clearTables K n (i + 1) (clearEntries (K.kernelPts + i) 1024 0 mem)

/-- The three stores to an entry of the loader's tables. -/
def loaderEntry (x : Word) (frame : ℕ) : Word :=
  Entry.writable.set (Entry.present.set (Entry.physAddr.set x frame) 1) 1

/-- The loop that maps pages to themselves, `n` of them from `i` on. -/
def mapLow (f : ℕ) : (n i : ℕ) → PhysMem → PhysMem
  | 0, _, mem => mem
  | n + 1, i, mem => mapLow f n (i + 1) (mem.write f i (loaderEntry (mem f i) i))

/-- `setup_tables`, up to `enable_paging`. -/
def setupTables (K : KernelImage) (mem : PhysMem) : PhysMem :=
  let kpts := K.kernelPts * pgSize
  let mem := clearTables K 256 0 mem
  let mem := mem.write K.kernelPd 0 (loaderEntry (mem K.kernelPd 0) (kpts >>> 12))
  let mem := mem.write K.kernelPd 768 (loaderEntry (mem K.kernelPd 768) (kpts >>> 12))
  mapLow K.kernelPts 1024 0 mem

/-- The machine after `enable_paging`. -/
def loadedMachine (K : KernelImage) (t : Machine ρ) : Machine ρ :=
  { t with mem := setupTables K t.mem, cr3 := K.kernelPd * pgSize }

/-! ## The kernel -/

/-- `i686_set_context`. -/
def i686SetContext (pd : ℕ) : MachineProg ρ (Except VirtmemError Unit) := do
  Prog.update fun s => { s with cr3 := pd }
  return .ok ()

/-- The machine, and the `identitymap_limit` of `i686_virtmem`. -/
structure VirtmemState (ρ : Type) where
  machine : Machine ρ
  identitymapLimit : ℕ

/-- Code that works on the machine. -/
def onMachine {α : Type} (x : MachineProg ρ α) : Prog MachineFault (VirtmemState ρ) α :=
  Prog.zoom VirtmemState.machine (fun m s => { s with machine := m }) id x

/-- `i686_brk`, which works on memory and the limit. -/
def onBrk {α : Type} (x : BrkProg α) : Prog MachineFault (VirtmemState ρ) α :=
  Prog.zoom (fun s => ⟨s.machine.mem, s.identitymapLimit⟩)
    (fun b s => ⟨{ s.machine with mem := b.mem }, b.identitymapLimit⟩) Empty.elim x

/-- `i686_virtmem_init`. -/
def i686VirtmemInit (K : KernelImage) (ebss : ℕ) : Prog MachineFault (VirtmemState ρ) Unit := do
  onMachine (i686SetKernelPdes K (K.kernelPd * pgSize + highstart) nKernelPde nStartPde)
  Prog.update fun s => { s with identitymapLimit := highstart }
  let _ ← onBrk (i686Brk K ebss)
  let _ ← onMachine (i686SetContext (K.kernelPd * pgSize))
  return ()

/-- The image lies in the memory that the loader maps: `kernel_pd` and `kernel_pts`, and behind them
`ebss`. -/
structure KernelImage.Low (K : KernelImage) (ebss : ℕ) : Prop where
  pd : highstart + (K.kernelPd + 1) * 4096 ≤ ebss
  pts : highstart + (K.kernelPts + 256) * 4096 ≤ ebss
  below : ebss ≤ highstart + 0x400000

section Loader

variable {mem base : PhysMem} {f i j n w d v cur ebss : ℕ} {t s : Machine ρ}

/-! ## What the loader leaves -/

lemma clearEntries_of_ne (h : d ≠ f) : clearEntries f n j mem d w = mem d w := by
  induction n generalizing j mem with
  | zero => rfl
  | succ n ih => rw [clearEntries, ih, write_of_frame_ne h]

lemma clearEntries_self (hlo : j ≤ w) (hhi : w < j + n) : clearEntries f n j mem f w = 0 := by
  induction n generalizing j mem with
  | zero => omega
  | succ n ih =>
      rw [clearEntries]
      by_cases hw : w = j
      · -- it was cleared now, and is not stored to again
        have hkept : ∀ (m : ℕ) (mem' : PhysMem), mem' f j = 0 →
            ∀ k, j < k → clearEntries f m k mem' f j = 0 := by
          intro m
          induction m with
          | zero => exact fun _ h _ _ => h
          | succ m ihm =>
              intro mem' h k hk
              refine ihm _ ?_ _ (by omega)
              rw [write_of_word_ne (by omega), h]
        rw [hw]
        exact hkept n _ write_self _ (Nat.lt_succ_self j)
      · exact ih (by omega) (by omega)

lemma clearTables_of_notTable (h : ∀ k < n, d ≠ K.kernelPts + (i + k)) :
    clearTables K n i mem d w = mem d w := by
  induction n generalizing i mem with
  | zero => rfl
  | succ n ih =>
      have hlater : ∀ k < n, d ≠ K.kernelPts + (i + 1 + k) := by
        intro k hk
        have hne := h (k + 1) (by omega)
        rwa [show i + (k + 1) = i + 1 + k by omega] at hne
      rw [clearTables, ih hlater]
      exact clearEntries_of_ne (h 0 (Nat.succ_pos n))

/-- **All kernel page tables are cleared.** -/
lemma clearTables_table (hlo : i ≤ j) (hhi : j < i + n) (hw : w < 1024) :
    clearTables K n i mem (K.kernelPts + j) w = 0 := by
  induction n generalizing i mem with
  | zero => omega
  | succ n ih =>
      rw [clearTables]
      by_cases hj : j = i
      · rw [clearTables_of_notTable fun k _ => by omega, hj]
        exact clearEntries_self (Nat.zero_le w) (by omega)
      · exact ih (by omega) (by omega)

lemma mapLow_of_ne (h : d ≠ f) : mapLow f n i mem d w = mem d w := by
  induction n generalizing i mem with
  | zero => rfl
  | succ n ih => rw [mapLow, ih, write_of_frame_ne h]

lemma mapLow_of_lt (h : w < i) : mapLow f n i mem f w = mem f w := by
  induction n generalizing i mem with
  | zero => rfl
  | succ n ih => rw [mapLow, ih (by omega), write_of_word_ne (by omega)]

lemma mapLow_self (hlo : i ≤ w) (hhi : w < i + n) :
    mapLow f n i mem f w = loaderEntry (mem f w) w := by
  induction n generalizing i mem with
  | zero => omega
  | succ n ih =>
      rw [mapLow]
      by_cases hw : w = i
      · rw [hw, mapLow_of_lt (Nat.lt_succ_self i), write_self]
      · rw [ih (by omega) (by omega), write_of_word_ne hw]

@[simp] lemma present_loaderEntry (x : Word) : Entry.present.get (loaderEntry x n) = 1 := by
  simp (disch := decide) only [loaderEntry, Field.get_set_of_disjoint, Field.get_set_self]
  rfl

@[simp] lemma writable_loaderEntry (x : Word) : Entry.writable.get (loaderEntry x n) = 1 := by
  simp (disch := decide) only [loaderEntry, Field.get_set_self]
  rfl

lemma physAddr_loaderEntry (x : Word) (hn : n < 2 ^ 20) :
    Entry.physAddr.get (loaderEntry x n) = n := by
  simp (disch := decide) only [loaderEntry, Field.get_set_of_disjoint, Field.get_set_self]
  exact Nat.mod_eq_of_lt hn

/-- **What `setup_tables` leaves**: kernel pages of the first 4 MiB are mapped to themselves and the
others are empty, and the first kernel page table is entered in `kernel_pd`. -/
structure Loaded (K : KernelImage) (mem : PhysMem) : Prop where
  low : ∀ i < 1024, kernelFlatpt K mem i = loaderEntry 0 i
  high : ∀ i < 2 ^ 18, 1024 ≤ i → kernelFlatpt K mem i = 0
  present : Entry.present.get (mem K.kernelPd 768) = 1
  frame : Entry.physAddr.get (mem K.kernelPd 768) = K.kernelPts

lemma setupTables_loaded (K : KernelImage) (mem : PhysMem) : Loaded K (setupTables K mem) := by
  have hshift : (K.kernelPts * pgSize) >>> 12 = K.kernelPts := by
    rw [Nat.shiftRight_eq_div_pow, pgSize]
    omega
  have hpd : ∀ j < 256, K.kernelPts + j ≠ K.kernelPd := by
    intro j hj
    have happart := K.apart
    omega
  -- the page tables before the first pages are mapped
  have hclear : ∀ j < 256, ∀ w < 1024, ∀ x y,
      (((clearTables K 256 0 mem).write K.kernelPd 0 x).write K.kernelPd 768 y)
        (K.kernelPts + j) w = 0 := by
    intro j hj w hw x y
    rw [write_of_frame_ne (hpd j hj), write_of_frame_ne (hpd j hj)]
    exact clearTables_table (Nat.zero_le j) (by omega) hw
  have hne := hpd 0 (by norm_num)
  rw [Nat.add_zero] at hne
  refine ⟨fun i hi => ?_, fun i hi hhigh => ?_, ?_, ?_⟩
  · have hfirst : i / 1024 = 0 := by omega
    have hindex : i % 1024 = i := by omega
    have hzero := hclear 0 (by norm_num) i hi
    rw [Nat.add_zero] at hzero
    rw [kernelFlatpt, hfirst, hindex, Nat.add_zero, setupTables,
      mapLow_self (Nat.zero_le i) (by omega), hzero]
  · rw [kernelFlatpt, setupTables, mapLow_of_ne (by omega)]
    exact hclear _ (by omega) _ (by omega) _ _
  · rw [setupTables, mapLow_of_ne hne.symm, write_self, present_loaderEntry]
  · have hrange := K.kernelPts_range
    rw [setupTables, mapLow_of_ne hne.symm, write_self, hshift]
    exact physAddr_loaderEntry _ (by omega)

-- `Loaded` is all that is used of it: computing it would clear the page tables
attribute [local irreducible] setupTables

/-! ## Filling in the kernel half -/

/-- The running page directory is `kernel_pd`, which can be stored to through its own mapping: page
768 of it points to the first kernel page table, and that maps the first 4 MiB to themselves. -/
structure Bootstrapped (K : KernelImage) (s : Machine ρ) : Prop where
  cr3 : s.cr3 = K.kernelPd * 4096
  present : Entry.present.get (s.mem K.kernelPd 768) = 1
  frame : Entry.physAddr.get (s.mem K.kernelPd 768) = K.kernelPts
  low : ∀ i < 1024, IdentityMapped K s.mem i

lemma Loaded.low_mapped (h : Loaded K mem) (hi : i < 1024) : IdentityMapped K mem i := by
  refine ⟨?_, ?_, ?_⟩
  · rw [h.low i hi, present_loaderEntry]
  · rw [h.low i hi, writable_loaderEntry]
  · rw [h.low i hi]
    exact physAddr_loaderEntry 0 (by omega)

lemma loadedMachine_bootstrapped (K : KernelImage) (t : Machine ρ) :
    Bootstrapped K (loadedMachine K t) := by
  have h := setupTables_loaded K t.mem
  have hmem : (loadedMachine K t).mem = setupTables K t.mem := by rw [loadedMachine]
  have hlow : ∀ i < 1024, IdentityMapped K (loadedMachine K t).mem i := by
    intro i hi
    rw [hmem]
    exact h.low_mapped hi
  refine ⟨by rw [loadedMachine, pgSize], ?_, ?_, hlow⟩
  · rw [hmem, h.present]
  · rw [hmem, h.frame]

/-- **`kernel_pd` shows itself.** -/
lemma Bootstrapped.accessFrame_run (h : Bootstrapped K s) (hpd : K.kernelPd < 1024) (hw : w < 1024) :
    (accessFrame (K.kernelPd * 4096 + highstart + 4 * w)).run s = .ok (K.kernelPd, s) := by
  have hpde : (K.kernelPd * 4096 + highstart + 4 * w) / 2 ^ 22 = 768 := by
    unfold highstart
    omega
  have hpte : (K.kernelPd * 4096 + highstart + 4 * w) / 2 ^ 12 % 2 ^ 10 = K.kernelPd := by
    unfold highstart
    omega
  have hflat : s.mem K.kernelPts K.kernelPd = kernelFlatpt K s.mem K.kernelPd := by
    rw [kernelFlatpt, Nat.div_eq_of_lt hpd, Nat.mod_eq_of_lt hpd, Nat.add_zero]
  have hself := h.low K.kernelPd hpd
  have hcr3 : s.cr3 / 4096 = K.kernelPd := by
    rw [h.cr3]
    exact Nat.mul_div_cancel _ (by norm_num)
  have hwalk : mmuTranslate s.mem (s.cr3 / 4096) (K.kernelPd * 4096 + highstart + 4 * w) =
      some ⟨K.kernelPd, Entry.writable.get (s.mem K.kernelPd 768) == 1 &&
        Entry.writable.get (kernelFlatpt K s.mem K.kernelPd) == 1,
        Entry.user.get (s.mem K.kernelPd 768) == 1 &&
        Entry.user.get (kernelFlatpt K s.mem K.kernelPd) == 1⟩ := by
    simp only [mmuTranslate, hcr3, hpde, hpte, h.frame, hflat]
    rw [if_pos ⟨h.present, hself.present⟩, hself.frame]
  rw [accessFrame, Prog.run_bind_gets, hwalk]
  rfl

/-- An entry of the kernel half is filled in. -/
lemma Bootstrapped.write (h : Bootstrapped K s) (hcur : 768 ≤ cur) :
    Bootstrapped K { s with mem := s.mem.write K.kernelPd cur (kernelPde K (cur - 768)) } := by
  have hfirst : cur = 768 → s.mem.write K.kernelPd cur (kernelPde K (cur - 768)) K.kernelPd 768
      = kernelPde K 0 := by
    rintro rfl
    rw [write_self, Nat.sub_self]
  have hother : cur ≠ 768 → s.mem.write K.kernelPd cur (kernelPde K (cur - 768)) K.kernelPd 768
      = s.mem K.kernelPd 768 := fun hne => write_of_word_ne hne.symm
  refine ⟨h.cr3, ?_, ?_, fun i hi => ?_⟩
  · show Entry.present.get (s.mem.write K.kernelPd cur _ K.kernelPd 768) = 1
    by_cases hc : cur = 768
    · rw [hfirst hc, present_kernelPde]
    · rw [hother hc, h.present]
  · show Entry.physAddr.get (s.mem.write K.kernelPd cur _ K.kernelPd 768) = K.kernelPts
    by_cases hc : cur = 768
    · rw [hfirst hc, physAddr_kernelPde (by norm_num), Nat.add_zero]
    · rw [hother hc, h.frame]
  · have hold := h.low i hi
    have hkept : kernelFlatpt K (s.mem.write K.kernelPd cur (kernelPde K (cur - 768))) i
        = kernelFlatpt K s.mem i := kernelFlatpt_write_outside (by omega) kernelPd_notTable
    exact ⟨by rw [hkept, hold.present], by rw [hkept, hold.writable], by rw [hkept, hold.frame]⟩

/-- **The loop over the kernel half** of the page directory that is running. -/
lemma Bootstrapped.setKernelPdes_run (h : Bootstrapped K s) (hpd : K.kernelPd < 1024)
    (hcur : 768 ≤ cur) (hn : cur + n ≤ 1024) :
    (i686SetKernelPdes K (K.kernelPd * pgSize + highstart) n cur).run s
      = .ok ((), { s with mem := setPdes K s.mem K.kernelPd cur n }) := by
  induction n generalizing s cur with
  | zero => rw [i686SetKernelPdes, Prog.run_pure, setPdes_zero]
  | succ n ih =>
      have hword : i686SetPde (s.mem K.kernelPd cur) ((K.kernelPts + (cur - nStartPde)) * pgSize)
          (i686PagePresent ||| i686PageWritable) = kernelPde K (cur - 768) := i686SetPde_eq _ _ _
      have hindex : (K.kernelPd * 4096 + highstart + 4 * cur) % 4096 / 4 = cur := by
        unfold highstart
        omega
      have hstore : (modifyWord (K.kernelPd * pgSize + highstart + 4 * cur) fun x =>
          i686SetPde x ((K.kernelPts + (cur - nStartPde)) * pgSize)
            (i686PagePresent ||| i686PageWritable)).run s
          = .ok ((), { s with mem := s.mem.write K.kernelPd cur (kernelPde K (cur - 768)) }) := by
        rw [pgSize, modifyWord, Prog.run_bind_ok (h.accessFrame_run hpd (by omega)),
          Prog.run_update, hindex]
        rw [pgSize] at hword
        rw [hword]
      rw [i686SetKernelPdes, Prog.run_bind_ok hstore, ih (h.write hcur) (by omega) (by omega),
        setPdes_succ]

/-! ## The kernel comes up -/

lemma onMachine_run {α : Type} {x : MachineProg ρ α} {q : VirtmemState ρ} {a : α} {m : Machine ρ}
    (h : x.run q.machine = .ok (a, m)) : (onMachine x).run q = .ok (a, { q with machine := m }) :=
  Prog.run_zoom_ok h

/-- `i686_virtmem_init`, put together from its parts. -/
lemma i686VirtmemInit_of_brk {m m₁ : Machine ρ} {b : BrkState} {old : ℕ} (limit : ℕ)
    (hlink : (i686SetKernelPdes K (K.kernelPd * pgSize + highstart) nKernelPde nStartPde).run m
      = .ok ((), m₁)) (hcr3 : m₁.cr3 = K.kernelPd * pgSize)
    (hbrk : (i686Brk K ebss).run ⟨m₁.mem, highstart⟩ = .ok (old, b)) :
    (i686VirtmemInit K ebss).run ⟨m, limit⟩
      = .ok ((), ⟨{ m₁ with mem := b.mem }, b.identitymapLimit⟩) := by
  have hpdes := onMachine_run (q := ⟨m, limit⟩) hlink
  have hup : (onBrk (i686Brk K ebss)).run ⟨m₁, highstart⟩
      = .ok (old, ⟨{ m₁ with mem := b.mem }, b.identitymapLimit⟩) := Prog.run_zoom_ok hbrk
  have hcontext : (onMachine (i686SetContext (K.kernelPd * pgSize))).run
      ⟨{ m₁ with mem := b.mem }, b.identitymapLimit⟩
      = .ok (.ok (), ⟨{ m₁ with mem := b.mem }, b.identitymapLimit⟩) := by
    refine onMachine_run ?_
    rw [i686SetContext, Prog.run_bind_update, Prog.run_pure, hcr3]
  rw [i686VirtmemInit, Prog.run_bind_ok hpdes, Prog.run_bind_update, Prog.run_bind_ok hup,
    Prog.run_bind_ok hcontext, Prog.run_pure]

/-- What is known of memory when `i686_virtmem_init` has returned, and after each call of `brk`. -/
structure KernelMapped (K : KernelImage) (b : BrkState) : Prop where
  lo : highstart ≤ b.identitymapLimit
  hi : b.identitymapLimit ≤ 0xFFFFF000
  linked : LinksKernel K b.mem K.kernelPd
  mapped : ∀ i < 2 ^ 18, i < max 1024 (pagesUpTo b.identitymapLimit) → IdentityMapped K b.mem i
  rest : ∀ i < 2 ^ 18, max 1024 (pagesUpTo b.identitymapLimit) ≤ i → kernelFlatpt K b.mem i = 0

/-- The kernel half has been filled in, and `brk` called. -/
lemma Loaded.mapped {b : BrkState} (h : Loaded K mem) (hlo : highstart ≤ b.identitymapLimit)
    (hhi : b.identitymapLimit ≤ 0xFFFFF000)
    (hbrk : IdentityUpTo K (setPdes K mem K.kernelPd 768 256) (pagesUpTo b.identitymapLimit)
      b.mem) : KernelMapped K b := by
  have hbound : pagesUpTo b.identitymapLimit ≤ 2 ^ 18 := by
    unfold pagesUpTo
    omega
  have hpd : ∀ w, b.mem K.kernelPd w = setPdes K mem K.kernelPd 768 256 K.kernelPd w := by
    intro w
    refine hbrk.kept _ _ fun i hi hc => kernelPd_notTable (K := K) ?_
    rw [hc.1]
    exact holdsTable_of_lt (by omega)
  have hkept : ∀ i < 2 ^ 18, pagesUpTo b.identitymapLimit ≤ i →
      kernelFlatpt K b.mem i = kernelFlatpt K mem i := by
    intro i hi hle
    have hsame := hbrk.kept (K.kernelPts + i / 1024) (i % 1024) fun j hj hc => by omega
    exact hsame.trans (kernelFlatpt_setPdes hi kernelPd_notTable)
  refine ⟨hlo, hhi, setPdes_linksKernel.congr hpd, fun i hi hmapped => ?_, fun i hi hrest => ?_⟩
  · by_cases hup : i < pagesUpTo b.identitymapLimit
    · exact hbrk.mapped i hup
    · have hold := h.low_mapped (i := i) (by omega)
      have hsame := hkept i hi (Nat.not_lt.mp hup)
      exact ⟨by rw [hsame, hold.present], by rw [hsame, hold.writable], by rw [hsame, hold.frame]⟩
  · rw [hkept i hi (le_of_max_le_right hrest), h.high i hi (le_of_max_le_left hrest)]

/-- **`i686_virtmem_init` does not fault.** -/
lemma i686VirtmemInit_run (hlow : K.Low ebss) (t : Machine ρ) (limit : ℕ) :
    ∃ b : BrkState, (i686VirtmemInit K ebss).run ⟨loadedMachine K t, limit⟩
        = .ok ((), ⟨{ loadedMachine K t with mem := b.mem }, b.identitymapLimit⟩) ∧
      b.identitymapLimit = ebss ∧
      IdentityUpTo K (setPdes K (setupTables K t.mem) K.kernelPd 768 256) (pagesUpTo ebss)
        b.mem := by
  have hboot := loadedMachine_bootstrapped K t
  have hpd := hlow.pd
  have hbelow := hlow.below
  unfold highstart at hpd hbelow
  have hlink := hboot.setKernelPdes_run (by omega) le_rfl (by norm_num : 768 + 256 ≤ 1024)
  -- the first page is mapped already
  obtain ⟨mem₁, hmem₁⟩ : ∃ mem₁, mem₁ = setPdes K (setupTables K t.mem) K.kernelPd 768 256 :=
    ⟨_, rfl⟩
  have hmem : (loadedMachine K t).mem = setupTables K t.mem := by rw [loadedMachine]
  have hfirst : BrkInit K ⟨mem₁, highstart⟩ := by
    have hold := (setupTables_loaded K t.mem).low_mapped (i := 0) (by norm_num)
    have hsame : kernelFlatpt K mem₁ 0 = kernelFlatpt K (setupTables K t.mem) 0 := by
      rw [hmem₁]
      exact kernelFlatpt_setPdes (by norm_num) kernelPd_notTable
    refine ⟨rfl, ⟨?_, ?_, ?_⟩⟩
    · rw [hsame, hold.present]
    · rw [hsame, hold.writable]
    · rw [hsame, hold.frame]
  have hinv := BrkInv.init hfirst
  have hnew : ebss ≤ 0xFFFFF000 := by omega
  have hbrk := i686Brk_wp hinv.identity hinv.lo hinv.hi hnew
  rcases Prog.wp_returns hbrk with ⟨old, b, hrun, -, hlimit, hidentity, -⟩
  have hmax : max ebss highstart = ebss := max_eq_left (by unfold highstart; omega)
  rw [hmax] at hlimit
  refine ⟨b, ?_, hlimit, ?_⟩
  · rw [hmem, ← hmem₁] at hlink
    have hinit := i686VirtmemInit_of_brk limit hlink (by rw [loadedMachine]) hrun
    exact hinit
  · rw [hlimit] at hidentity
    rw [← hmem₁]
    exact hidentity

end Loader

/-- **The machine that address spaces are made on**: what the loader leaves of whatever it found,
after `i686_virtmem_init` and any calls of `brk`, when the physical memory manager has come up and
does not hand out the image.  The number is the limit that `brk` has got to. -/
inductive StartedUp (K : KernelImage) (L : Localmem ρ) (ebss : ℕ) : ℕ → Machine ρ → Prop
  | intro {t : Machine ρ} {limit : ℕ} {q : VirtmemState ρ} {b : BrkRun} {l : ρ} :
      (i686VirtmemInit K ebss).run ⟨loadedMachine K t, limit⟩ = .ok ((), q) →
      Reachable (fun b => b = ⟨⟨q.machine.mem, q.identitymapLimit⟩, [ebss]⟩) (BrkStep K) b →
      (∀ f ∈ L.free l, ¬K.HoldsTable f ∧ f ≠ K.kernelPd) →
      StartedUp K L ebss b.s.identitymapLimit { q.machine with mem := b.s.mem, localmem := l }

section StartedUp

variable {m t : Machine ρ} {limit ebss v d : ℕ} {r : SpaceRun ρ}

/-- What is known of the machine. -/
lemma StartedUp.mapped (hlow : K.Low ebss) (h : StartedUp K L ebss limit m) :
    m.cr3 = K.kernelPd * 4096 ∧ ebss ≤ limit ∧ KernelMapped K ⟨m.mem, limit⟩ ∧
      ∀ f ∈ L.free m.localmem, ¬K.HoldsTable f ∧ f ≠ K.kernelPd := by
  rcases h with @⟨t, limit₀, q, b, l, hrun, hbrk, hfree⟩
  rcases i686VirtmemInit_run hlow t limit₀ with ⟨b₀, hrun₀, hlimit, hidentity⟩
  rw [hrun₀] at hrun
  obtain rfl := (Prod.mk.inj (Except.ok.inj hrun)).2
  have hpd := hlow.pd
  have hbelow := hlow.below
  -- the invariant of the calls of `brk`
  have hinv : ebss ≤ b.s.identitymapLimit ∧ b.s.identitymapLimit ≤ 0xFFFFF000 ∧
      IdentityUpTo K (setPdes K (setupTables K t.mem) K.kernelPd 768 256)
        (pagesUpTo b.s.identitymapLimit) b.s.mem := by
    refine Reachable.invariant (I := fun b : BrkRun => ebss ≤ b.s.identitymapLimit ∧
      b.s.identitymapLimit ≤ 0xFFFFF000 ∧
      IdentityUpTo K (setPdes K (setupTables K t.mem) K.kernelPd 768 256)
        (pagesUpTo b.s.identitymapLimit) b.s.mem) ?_ ?_ hbrk
    · rintro _ rfl
      dsimp only
      rw [hlimit]
      refine ⟨le_rfl, ?_, hidentity⟩
      unfold highstart at hbelow
      omega
    · rintro c _ ⟨hlo, hhi, hident⟩ ⟨hnew, hstep⟩
      have hlo' : highstart ≤ c.s.identitymapLimit := by omega
      rcases Prog.wp_run (i686Brk_wp hident hlo' hhi hnew) hstep with ⟨-, hmax, hnext, -⟩
      refine ⟨?_, ?_, hnext⟩
      · rw [hmax]
        exact hlo.trans (le_max_right _ _)
      · rw [hmax]
        exact max_le hnew hhi
  refine ⟨by rw [loadedMachine, pgSize], hinv.1, ?_, hfree⟩
  exact (setupTables_loaded K t.mem).mapped (b := ⟨b.s.mem, b.s.identitymapLimit⟩)
    (by dsimp only; omega) hinv.2.1 hinv.2.2

/-- Address spaces can be made on the machine. -/
lemma StartedUp.init (hlow : K.Low ebss) (h : StartedUp K L ebss limit m) : VirtmemInit K L m := by
  rcases h.mapped hlow with ⟨hcr3, -, hmapped, hfree⟩
  refine ⟨hcr3, hmapped.linked, fun i hi h0 => ?_, hfree⟩
  by_cases hin : i < max 1024 (pagesUpTo limit)
  · have h1 := (hmapped.mapped i hi hin).present
    rw [h0] at h1
    exact absurd h1 zero_ne_one
  · exact hmapped.rest i hi (Nat.not_lt.mp hin)

/-- **`i686_virtmem_init` does not fault** on what the loader leaves, whatever memory held before;
and after it and any calls of `brk` the machine is one that address spaces can be made on: the
kernel pages up to the limit, and those of the first 4 MiB, are identity mapped, and every other
kernel page is empty. -/
theorem virtmem_init_run (hlow : K.Low ebss) :
    (∀ (t : Machine ρ) limit, ∃ q, (i686VirtmemInit K ebss).run ⟨loadedMachine K t, limit⟩
      = .ok ((), q) ∧ q.identitymapLimit = ebss) ∧
    ∀ (L : Localmem ρ) limit m, StartedUp K L ebss limit m →
      ebss ≤ limit ∧ KernelMapped K ⟨m.mem, limit⟩ ∧ VirtmemInit K L m := by
  refine ⟨fun t limit => ?_, fun L limit m h => ?_⟩
  · rcases i686VirtmemInit_run hlow t limit with ⟨b, hrun, hlimit, -⟩
    exact ⟨_, hrun, hlimit⟩
  · rcases h.mapped hlow with ⟨-, hle, hmapped, -⟩
    exact ⟨hle, hmapped, h.init hlow⟩

/-- The small image ends below 2 MiB. -/
lemma smallImage_low : smallImage.Low 0xC0200000 := by
  refine ⟨?_, ?_, ?_⟩
  · show 0xC0000000 + (1 + 1) * 4096 ≤ 0xC0200000
    norm_num
  · show 0xC0000000 + (2 + 256) * 4096 ≤ 0xC0200000
    norm_num
  · show 0xC0200000 ≤ 0xC0000000 + 0x400000
    norm_num

/-- It comes up, and `brk` is called for 6 MiB. -/
lemma smallImage_startedUp : ∃ m, StartedUp smallImage countingLocalmem 0xC0200000 0xC0600000 m ∧
    m.localmem = 300 := by
  rcases i686VirtmemInit_run smallImage_low (smallMachineWith 300) 0 with
    ⟨b, hrun, hlimit, hidentity⟩
  rw [← hlimit] at hidentity
  rcases Prog.wp_returns (i686Brk_wp hidentity (by rw [hlimit]; norm_num [highstart])
    (by rw [hlimit]; norm_num) (by norm_num : 0xC0600000 ≤ 0xFFFFF000)) with
    ⟨old, b', hbrk, -, hlimit', -⟩
  rw [hlimit] at hlimit'
  have hup := StartedUp.intro hrun (.tail (.base rfl) (.brk (by norm_num) hbrk))
    smallMachineWith_init.free
  dsimp only at hup
  rw [hlimit'] at hup
  exact ⟨_, hup, rfl⟩

/-- The small image comes up, and the kernel pages from 1537 on are empty. -/
theorem virtmem_init_run_small :
    (∃ q, (i686VirtmemInit smallImage 0xC0200000).run
      ⟨loadedMachine smallImage (smallMachineWith 300), 0⟩ = .ok ((), q) ∧
      q.identitymapLimit = 0xC0200000) ∧
    ∃ m, StartedUp smallImage countingLocalmem 0xC0200000 0xC0600000 m ∧
      VirtmemInit smallImage countingLocalmem m ∧
      ∀ i < 2 ^ 18, 1537 ≤ i → kernelFlatpt smallImage m.mem i = 0 := by
  refine ⟨(virtmem_init_run smallImage_low).1 (smallMachineWith 300) 0, ?_⟩
  rcases smallImage_startedUp with ⟨m, hm, -⟩
  rcases (virtmem_init_run smallImage_low).2 _ _ m hm with ⟨-, hmapped, hinit⟩
  have hpages : max 1024 (pagesUpTo 0xC0600000) = 1537 := by decide
  exact ⟨m, hm, hinit, fun i hi hle => hmapped.rest i hi (hpages ▸ hle)⟩

/-- The pages of the identity mapping are left alone in every run. -/
lemma StartedUp.stays_mapped (hlow : K.Low ebss) (hm : StartedUp K L ebss limit m)
    (hr : Reachable (fun r => r = startSpaces K L m) (SpaceStep K L) r)
    (hd : d = K.kernelPd ∨ ∃ as ∈ r.live, d = directoryOf r.k.env as) (hlo : highstart ≤ v)
    (hhi : v < max limit (highstart + 0x400000)) :
    mmuTranslate r.k.env.mem d v = some ⟨(v - highstart) / 4096, true, false⟩ := by
  rcases hm.mapped hlow with ⟨-, -, hmapped, -⟩
  have hlimit : limit ≤ 0xFFFFF000 := hmapped.hi
  have hv : v < 2 ^ 32 := by
    unfold highstart at hhi
    omega
  rcases exists_window hlo hv with ⟨i, hi, o, ho, rfl⟩
  have hin : i < max 1024 (pagesUpTo limit) := by
    unfold window highstart at hhi
    unfold pagesUpTo
    omega
  have hself := hmapped.mapped i hi hin
  -- the page is left alone in every run
  have hkept : (∃ pg, SpaceInv K L pg r) ∧ kernelFlatpt K r.k.env.mem i = kernelFlatpt K m.mem i ∧
      window i ∉ r.pages := by
    refine Reachable.invariant (I := fun r => (∃ pg, SpaceInv K L pg r) ∧
      kernelFlatpt K r.k.env.mem i = kernelFlatpt K m.mem i ∧ window i ∉ r.pages) ?_ ?_ hr
    · rintro _ rfl
      exact ⟨⟨_, SpaceStart.inv ⟨m, hm.init hlow, rfl⟩⟩, rfl, List.not_mem_nil⟩
    · rintro c c' ⟨⟨pg, hinv⟩, hsame, hout⟩ hstep
      have h1 : Entry.present.get (kernelFlatpt K c.k.env.mem i) = 1 := by
        rw [hsame, hself.present]
      rcases hinv.fixedPage hstep hi h1 hout with ⟨hsame', hout'⟩
      exact ⟨hinv.step hstep, hsame'.trans hsame, hout'⟩
  rcases hkept with ⟨⟨pg, hinv⟩, hsame, -⟩
  have hlinked : LinksKernel K r.k.env.mem d := by
    rcases hd with rfl | ⟨as, has, rfl⟩
    · exact hinv.roles.kernel
    · exact hinv.roles.linked _ ⟨as, has, rfl⟩
  have hframe : (window i + o - highstart) / 4096 = i := by
    unfold window highstart
    omega
  rw [mmuTranslate_kernel hlinked hi ho, hsame, if_pos hself.present, hself.frame, hself.writable,
    hframe]
  rfl

/-- **The kernel stays where it is mapped.**  However long the kernel runs, and however many address
spaces it makes, `kernel_pd` and the page directory of every address space map each kernel address
below the limit, and each in the first 4 MiB, to itself minus `highstart`, writable and not open to
user mode. -/
theorem kernel_stays_mapped (hlow : K.Low ebss) (hm : StartedUp K L ebss limit m)
    (hr : Reachable (fun r => r = startSpaces K L m) (SpaceStep K L) r)
    (hd : d = K.kernelPd ∨ ∃ as ∈ r.live, d = directoryOf r.k.env as) (hlo : highstart ≤ v)
    (hhi : v < max limit (highstart + 0x400000)) :
    mmuTranslate r.k.env.mem d v = some ⟨(v - highstart) / 4096, true, false⟩ :=
  hm.stays_mapped hlow hr hd hlo hhi

end StartedUp

/-- Many kernel pages are left when the kernel has come up. -/
lemma KernelMapped.freeWindows {b : BrkState} (h : KernelMapped K b) :
    2 ^ 18 - max 1024 (pagesUpTo b.identitymapLimit) ≤ freeWindows K b.mem := by
  have hsub : Finset.Ico (max 1024 (pagesUpTo b.identitymapLimit)) (2 ^ 18) ⊆
      (Finset.range (2 ^ 18)).filter fun i => Entry.present.get (kernelFlatpt K b.mem i) = 0 := by
    intro i hi
    rw [Finset.mem_Ico] at hi
    rw [Finset.mem_filter, Finset.mem_range, h.rest i hi.2 hi.1]
    exact ⟨hi.2, Field.get_zero _⟩
  have hcard := Finset.card_le_card hsub
  rwa [Nat.card_Ico] at hcard

/-- The small image makes an address space. -/
lemma smallImage_makes : ∃ m as k, StartedUp smallImage countingLocalmem 0xC0200000 0xC0600000 m ∧
    (addressSpaceAlloc smallImage).run (startSpaces smallImage countingLocalmem m).k
      = .ok (.ok as, k) := by
  rcases smallImage_startedUp with ⟨m, hm, hlocal⟩
  rcases (hm.mapped smallImage_low) with ⟨-, -, hmapped, -⟩
  have hpages : max 1024 (pagesUpTo 0xC0600000) = 1537 := by decide
  have hfree : 2 ^ 18 - max 1024 (pagesUpTo 0xC0600000) ≤ freeWindows smallImage m.mem :=
    hmapped.freeWindows
  rw [hpages] at hfree
  have halloc : countingLocalmem.pageAlloc m.localmem = (.ok (300 * 4096), 301) := by
    rw [hlocal]
    rfl
  have halloc' : (countingLocalmem.pageAlloc 301).1 = .ok (301 * 4096) := rfl
  rcases (hm.init smallImage_low).firstSpace (by omega) halloc halloc' with ⟨as, k, hrun⟩
  exact ⟨m, as, k, hm, hrun⟩

/-- The small image, with an address space: an address of the kernel in its page directory. -/
theorem kernel_stays_mapped_small : ∃ m as k,
    StartedUp smallImage countingLocalmem 0xC0200000 0xC0600000 m ∧
    (addressSpaceAlloc smallImage).run (startSpaces smallImage countingLocalmem m).k
      = .ok (.ok as, k) ∧
    mmuTranslate k.env.mem (directoryOf k.env as) 0xC0501234 = some ⟨0x501, true, false⟩ := by
  rcases smallImage_makes with ⟨m, as, k, hm, hrun⟩
  have hmapped := kernel_stays_mapped (v := 0xC0501234) smallImage_low hm
    (.tail (.base rfl) (.spaceAlloc hrun)) (Or.inr ⟨as, List.mem_singleton_self as, rfl⟩)
    (by norm_num [highstart]) (by norm_num [highstart])
  exact ⟨m, as, k, hm, hrun, hmapped⟩

end Akaris
