import Akaris.Virtmem.Tables

/-!
# Windows

How the kernel gets at a page frame: `kernel_alloc` finds a kernel page that is not present,
`kernel_map_virt_to_phys` points it to the frame, and loads and stores go through it.

`Opened K W base mem` says that `mem` is `base` with the windows `W` opened, whatever they were
pointed to: entries of `kernel_flatpt` that were not present in `base` and are now, and nothing
else; `Opens K W t s` says it of two states of the machine.  Every function that works through
windows is specified by what it does to the machine `t` without them, and `Opens` says what is left
behind.  As `kernel_free` gives nothing back, the number of windows that are still free only goes
down, `Opened.freeWindows`.

Accesses in a window are accesses to the frame it shows, as long as the running page directory is
linked to `kernel_pts`: that is `Running`.
-/

namespace Akaris

variable {ρ : Type} {K : KernelImage}

/-! ## Opened windows -/

lemma present_cases (x : Word) : Entry.present.get x = 0 ∨ Entry.present.get x = 1 := by
  have h : Entry.present.get x < 2 := Field.get_lt _ _
  omega

/-- The number of kernel pages that are not present. -/
def freeWindows (K : KernelImage) (mem : PhysMem) : ℕ :=
  ((Finset.range (2 ^ 18)).filter fun i => Entry.present.get (kernelFlatpt K mem i) = 0).card

lemma freeWindows_congr {mem mem' : PhysMem} (h : ∀ f w, K.HoldsTable f → mem' f w = mem f w) :
    freeWindows K mem' = freeWindows K mem := by
  rw [freeWindows, freeWindows]
  refine congrArg Finset.card (Finset.filter_congr fun i hi => ?_)
  rw [kernelFlatpt_congr (Finset.mem_range.mp hi) h]

/-- `mem` is `base` with the windows `W` opened. -/
structure Opened (K : KernelImage) (W : Finset ℕ) (base mem : PhysMem) : Prop where
  outside : ∀ f w, ¬K.HoldsTable f → mem f w = base f w
  other : ∀ i < 2 ^ 18, i ∉ W → kernelFlatpt K mem i = kernelFlatpt K base i
  fresh : ∀ i ∈ W, i < 2 ^ 18 ∧ Entry.present.get (kernelFlatpt K base i) = 0
  opened : ∀ i ∈ W, Entry.present.get (kernelFlatpt K mem i) = 1

namespace Opened

variable {W W' : Finset ℕ} {base mem mem' : PhysMem} {i f w : ℕ} {x : Word}

lemma refl (mem : PhysMem) : Opened K ∅ mem mem :=
  ⟨fun _ _ _ => rfl, fun _ _ _ => rfl, by simp, by simp⟩

/-- A page that was present is not touched. -/
lemma kept (h : Opened K W base mem) (hi : i < 2 ^ 18)
    (hp : Entry.present.get (kernelFlatpt K base i) = 1) :
    kernelFlatpt K mem i = kernelFlatpt K base i := by
  refine h.other i hi fun hW => ?_
  have hfresh := (h.fresh i hW).2
  omega

/-- A page that is not present is not one of the windows. -/
lemma notMem (h : Opened K W base mem) (h0 : Entry.present.get (kernelFlatpt K mem i) = 0) :
    i ∉ W := fun hW => by
  have hopened := h.opened i hW
  omega

/-- Opening one more window. -/
lemma take (h : Opened K W base mem) (hi : i < 2 ^ 18)
    (h0 : Entry.present.get (kernelFlatpt K mem i) = 0) (hx : Entry.present.get x = 1) :
    Opened K (insert i W) base (setKernelFlatpt K mem i x) := by
  have hW := h.notMem h0
  refine ⟨fun f w hf => ?_, fun j hj hjW => ?_, fun j hj => ?_, fun j hj => ?_⟩
  · rw [setKernelFlatpt_outside hi hf, h.outside f w hf]
  · rw [Finset.mem_insert, not_or] at hjW
    rw [setKernelFlatpt_of_ne hjW.1, h.other j hj hjW.2]
  · rcases Finset.mem_insert.mp hj with rfl | hj
    · exact ⟨hi, by rw [← h.other j hi hW, h0]⟩
    · exact h.fresh j hj
  · by_cases hji : j = i
    · rw [hji, setKernelFlatpt_self, hx]
    · rw [setKernelFlatpt_of_ne hji]
      exact h.opened j (Finset.mem_of_mem_insert_of_ne hj hji)

/-- Pointing a window somewhere else. -/
lemma remap (h : Opened K W base mem) (hi : i ∈ W) (hx : Entry.present.get x = 1) :
    Opened K W base (setKernelFlatpt K mem i x) := by
  have hlt := (h.fresh i hi).1
  refine ⟨fun f w hf => ?_, fun j hj hjW => ?_, h.fresh, fun j hj => ?_⟩
  · rw [setKernelFlatpt_outside hlt hf, h.outside f w hf]
  · have hji : j ≠ i := by
      rintro rfl
      exact hjW hi
    rw [setKernelFlatpt_of_ne hji, h.other j hj hjW]
  · by_cases hji : j = i
    · rw [hji, setKernelFlatpt_self, hx]
    · rw [setKernelFlatpt_of_ne hji, h.opened j hj]

/-- What is stored to other frames is stored to `base`. -/
lemma congr (h : Opened K W base mem) {base' : PhysMem}
    (hbase : ∀ f w, K.HoldsTable f → base' f w = base f w)
    (hmem : ∀ f w, K.HoldsTable f → mem' f w = mem f w)
    (hout : ∀ f w, ¬K.HoldsTable f → mem' f w = base' f w) : Opened K W base' mem' := by
  refine ⟨hout, fun i hi hW => ?_, fun i hi => ?_, fun i hi => ?_⟩
  · rw [kernelFlatpt_congr hi hmem, kernelFlatpt_congr hi hbase, h.other i hi hW]
  · rw [kernelFlatpt_congr (h.fresh i hi).1 hbase]
    exact h.fresh i hi
  · rw [kernelFlatpt_congr (h.fresh i hi).1 hmem, h.opened i hi]

lemma write (h : Opened K W base mem) (hf : ¬K.HoldsTable f) :
    Opened K W (base.write f w x) (mem.write f w x) := by
  have hne : ∀ f', K.HoldsTable f' → f' ≠ f := by
    rintro f' hf' rfl
    exact hf hf'
  refine h.congr (fun f' w' hf' => write_of_frame_ne (hne f' hf'))
    (fun f' w' hf' => write_of_frame_ne (hne f' hf')) fun f' w' hf' => ?_
  simp only [PhysMem.write, h.outside f' w' hf']

lemma zeroFrame (h : Opened K W base mem) (hf : ¬K.HoldsTable f) :
    Opened K W (zeroFrame base f) (zeroFrame mem f) := by
  have hne : ∀ f', K.HoldsTable f' → f' ≠ f := by
    rintro f' hf' rfl
    exact hf hf'
  refine h.congr (fun f' w' hf' => zeroFrame_of_ne (hne f' hf'))
    (fun f' w' hf' => zeroFrame_of_ne (hne f' hf')) fun f' w' hf' => ?_
  simp only [Akaris.zeroFrame, h.outside f' w' hf']

lemma storeBytes (h : Opened K W base mem) {locs : ℕ → ℕ × ℕ} {val : ℕ → ℕ} {n : ℕ}
    (hlocs : ∀ i < n, ¬K.HoldsTable (locs i).1) :
    Opened K W (storeBytes base locs val n) (storeBytes mem locs val n) := by
  have hne : ∀ f', K.HoldsTable f' → ∀ i < n, (locs i).1 ≠ f' := by
    rintro f' hf' i hi rfl
    exact hlocs i hi hf'
  exact h.congr (fun f' w' hf' => storeBytes_of_frame_ne (hne f' hf'))
    (fun f' w' hf' => storeBytes_of_frame_ne (hne f' hf'))
    fun f' w' hf' => storeBytes_congr (fun w => h.outside f' w hf') w'

lemma trans (h : Opened K W base mem) (h' : Opened K W' mem mem') :
    Opened K (W ∪ W') base mem' := by
  refine ⟨fun f w hf => ?_, fun i hi hW => ?_, fun i hi => ?_, fun i hi => ?_⟩
  · rw [h'.outside f w hf, h.outside f w hf]
  · rw [Finset.notMem_union] at hW
    rw [h'.other i hi hW.2, h.other i hi hW.1]
  · rcases Finset.mem_union.mp hi with hi | hi
    · exact h.fresh i hi
    · have hfresh := h'.fresh i hi
      refine ⟨hfresh.1, ?_⟩
      rw [← h.other i hfresh.1 (h.notMem hfresh.2), hfresh.2]
  · rcases Finset.mem_union.mp hi with hi | hi
    · have hp := h.opened i hi
      rw [h'.kept (h.fresh i hi).1 hp, hp]
    · exact h'.opened i hi

/-- **Windows are used up.** -/
lemma freeWindows (h : Opened K W base mem) :
    freeWindows K mem + W.card = freeWindows K base := by
  have hsplit : (Finset.range (2 ^ 18)).filter
        (fun i => Entry.present.get (kernelFlatpt K base i) = 0) =
      (Finset.range (2 ^ 18)).filter
        (fun i => Entry.present.get (kernelFlatpt K mem i) = 0) ∪ W := by
    ext i
    simp only [Finset.mem_union, Finset.mem_filter, Finset.mem_range]
    by_cases hW : i ∈ W
    · have hfresh := h.fresh i hW
      exact ⟨fun _ => Or.inr hW, fun _ => ⟨hfresh.1, hfresh.2⟩⟩
    · refine ⟨fun hi => Or.inl ⟨hi.1, ?_⟩, fun hi => ?_⟩
      · rw [h.other i hi.1 hW, hi.2]
      · rcases hi with hi | hi
        · exact ⟨hi.1, by rw [← h.other i hi.1 hW, hi.2]⟩
        · exact absurd hi hW
  rw [Akaris.freeWindows, Akaris.freeWindows, hsplit, Finset.card_union_of_disjoint]
  refine Finset.disjoint_left.mpr fun i hi hW => ?_
  exact h.notMem (Finset.mem_filter.mp hi).2 hW

end Opened

/-- `s` is the machine `t` with the windows `W` opened. -/
structure Opens (K : KernelImage) (W : Finset ℕ) (t s : Machine ρ) : Prop where
  mem : Opened K W t.mem s.mem
  cr3 : s.cr3 = t.cr3
  localmem : s.localmem = t.localmem
  as : s.as = t.as

namespace Opens

variable {W W' : Finset ℕ} {t s : Machine ρ} {f w : ℕ} {x : Word}

lemma refl (s : Machine ρ) : Opens K ∅ s s := ⟨Opened.refl _, rfl, rfl, rfl⟩

lemma setMem (h : Opens K W t s) {mem : PhysMem} (hmem : Opened K W' t.mem mem) :
    Opens K W' t { s with mem := mem } := ⟨hmem, h.cr3, h.localmem, h.as⟩

lemma setLocalmem (h : Opens K W t s) (l : ρ) :
    Opens K W { t with localmem := l } { s with localmem := l } := ⟨h.mem, h.cr3, rfl, h.as⟩

lemma write (h : Opens K W t s) (hf : ¬K.HoldsTable f) :
    Opens K W { t with mem := t.mem.write f w x } { s with mem := s.mem.write f w x } :=
  ⟨h.mem.write hf, h.cr3, h.localmem, h.as⟩

lemma zeroFrame (h : Opens K W t s) (hf : ¬K.HoldsTable f) :
    Opens K W { t with mem := zeroFrame t.mem f } { s with mem := Akaris.zeroFrame s.mem f } :=
  ⟨h.mem.zeroFrame hf, h.cr3, h.localmem, h.as⟩

lemma storeBytes (h : Opens K W t s) {locs : ℕ → ℕ × ℕ} {val : ℕ → ℕ} {n : ℕ}
    (hlocs : ∀ i < n, ¬K.HoldsTable (locs i).1) :
    Opens K W { t with mem := storeBytes t.mem locs val n }
      { s with mem := Akaris.storeBytes s.mem locs val n } :=
  ⟨h.mem.storeBytes hlocs, h.cr3, h.localmem, h.as⟩

lemma outside (h : Opens K W t s) (hf : ¬K.HoldsTable f) : s.mem f w = t.mem f w :=
  h.mem.outside f w hf

end Opens

/-! ## Taking and pointing windows -/

/-- A kernel page `i` shows the frame `f`. -/
structure Shows (K : KernelImage) (mem : PhysMem) (i f : ℕ) : Prop where
  lt : i < 2 ^ 18
  present : Entry.present.get (kernelFlatpt K mem i) = 1
  frame : Entry.physAddr.get (kernelFlatpt K mem i) = f

section Alloc

variable {mem : PhysMem} {t s : Machine ρ} {W : Finset ℕ}

lemma scanFlatpt_some {n i j : ℕ} (h : scanFlatpt K mem n i = some j) :
    (i ≤ j ∧ j < i + n) ∧ Entry.present.get (kernelFlatpt K mem j) = 0 := by
  induction n generalizing i with
  | zero => exact absurd h (by simp [scanFlatpt])
  | succ n ih =>
      rw [scanFlatpt] at h
      split_ifs at h with h0
      · obtain rfl := Option.some.inj h
        exact ⟨by omega, h0⟩
      · have hrest := ih h
        exact ⟨by omega, hrest.2⟩

lemma scanFlatpt_none {n i : ℕ} (h : scanFlatpt K mem n i = none) :
    ∀ j, i ≤ j → j < i + n → Entry.present.get (kernelFlatpt K mem j) ≠ 0 := by
  induction n generalizing i with
  | zero =>
      intro j hij hj
      omega
  | succ n ih =>
      rw [scanFlatpt] at h
      split_ifs at h with h0
      intro j hij hj
      by_cases heq : j = i
      · rwa [heq]
      · exact ih h j (by omega) (by omega)

lemma freeWindows_eq_zero (h : scanFlatpt K mem (2 ^ 18) 0 = none) : freeWindows K mem = 0 := by
  rw [freeWindows, Finset.card_eq_zero, Finset.filter_eq_empty_iff]
  intro i hi
  exact scanFlatpt_none h i (Nat.zero_le _) (by simpa using hi)

/-- **`kernel_alloc`** opens a window, when one is left. -/
lemma i686KernelAlloc_wp (h : Opens K W t s) :
    Prog.wp (i686KernelAlloc K 1)
      (fun r s' =>
        (∃ i, r = .ok (window i) ∧ i ∉ W ∧ Opens K (insert i W) t s' ∧
          Entry.physAddr.get (kernelFlatpt K s'.mem i)
            = Entry.physAddr.get (kernelFlatpt K t.mem i) ∧
          ∀ j, j ≠ i → kernelFlatpt K s'.mem j = kernelFlatpt K s.mem j) ∨
        (r = .error .oom ∧ freeWindows K t.mem = W.card ∧ s' = s))
      (fun _ => False) s := by
  obtain ⟨n, hn'⟩ : ∃ n, n = 1024 * nKernelPde := ⟨_, rfl⟩
  have hn : n = 2 ^ 18 := by
    rw [hn', nKernelPde]
    norm_num
  simp only [i686KernelAlloc, Prog.wp_bind, Prog.wp_assert, Prog.wp_gets, ← hn']
  refine ⟨fun _ => ?_, fun hn => absurd trivial hn⟩
  cases hscan : scanFlatpt K s.mem n 0 with
  | none =>
      have hfree := h.mem.freeWindows
      rw [hn] at hscan
      rw [freeWindows_eq_zero hscan] at hfree
      exact Or.inr ⟨rfl, by omega, rfl⟩
  | some i =>
      rcases scanFlatpt_some hscan with ⟨hrange, h0⟩
      have hi : i < 2 ^ 18 := by omega
      have hW := h.mem.notMem h0
      have hpresent : Entry.present.get (Entry.writable.set
          (Entry.present.set (kernelFlatpt K s.mem i) 1) 1) = 1 := by
        rw [Field.get_set_of_disjoint (by decide), Field.get_set_self]
        rfl
      have haddr : Entry.physAddr.get (Entry.writable.set
          (Entry.present.set (kernelFlatpt K s.mem i) 1) 1)
            = Entry.physAddr.get (kernelFlatpt K t.mem i) := by
        rw [Field.get_set_of_disjoint (by decide), Field.get_set_of_disjoint (by decide),
          h.mem.other i hi hW]
      simp only [Prog.wp_bind, Prog.wp_update, Prog.wp_pure]
      refine Or.inl ⟨i, ?_, hW, h.setMem (h.mem.take hi h0 hpresent), ?_, fun j hj => ?_⟩
      · have heq : i * pgSize + highstart = window i := by rw [window, pgSize]
        have hlt := window_lt hi
        rw [heq, wrap32_of_lt (by omega)]
      · rw [setKernelFlatpt_self, haddr]
      · exact setKernelFlatpt_of_ne hj

lemma window_div {i o : ℕ} (ho : o < 4096) : (window i + o) / pgSize = nStartPde * 1024 + i := by
  unfold window highstart pgSize nStartPde
  omega

lemma sub32_start {a b : ℕ} (h : a + b < 2 ^ 32) : sub32 (a + b) a = b := by
  rw [sub32_of_le (Nat.le_add_right a b) h]
  exact Nat.add_sub_cancel_left a b

/-- Kernel addresses are found in `kernel_flatpt`. -/
lemma i686VirtToPte_offset_run {i o : ℕ} (hi : i < 2 ^ 18) (ho : o < 4096) :
    (i686VirtToPte (window i + o)).run s = .ok (i, s) := by
  have hpde : sub32 ((window i + o) / pgSize / 1024) nStartPde = i / 1024 := by
    have hdiv : (nStartPde * 1024 + i) / 1024 = nStartPde + i / 1024 := by omega
    rw [window_div ho, hdiv, sub32_start]
    unfold nStartPde
    omega
  have hpte : sub32 ((window i + o) / pgSize) (nStartPde * 1024) = i := by
    rw [window_div ho, sub32_start]
    unfold nStartPde
    omega
  have hlt : sub32 ((window i + o) / pgSize / 1024) nStartPde < nKernelPde := by
    rw [hpde, nKernelPde]
    omega
  simp only [i686VirtToPte, hpte]
  rw [Prog.run_bind_assert hlt, Prog.run_pure]

lemma i686VirtToPte_run {i : ℕ} (hi : i < 2 ^ 18) :
    (i686VirtToPte (window i)).run s = .ok (i, s) := by
  have hrun := i686VirtToPte_offset_run (s := s) (o := 0) hi (by norm_num)
  rwa [Nat.add_zero] at hrun

/-- What a page of the kernel becomes when it is mapped to `p`. -/
def windowPte (x : Word) (p : ℕ) : Word := i686SetPte x p (i686PageWritable ||| i686PagePresent)

@[simp] lemma present_windowPte (x : Word) (p : ℕ) : Entry.present.get (windowPte x p) = 1 :=
  present_setPte _ _ _

@[simp] lemma physAddr_windowPte (x : Word) (p : ℕ) :
    Entry.physAddr.get (windowPte x p) = p / 4096 % 2 ^ 20 := physAddr_setPte _ _ _

lemma i686KernelMapVirtToPhys_run {i : ℕ} (hi : i < 2 ^ 18)
    (hp : Entry.present.get (kernelFlatpt K s.mem i) = 1) (p : ℕ) :
    (i686KernelMapVirtToPhys K p (window i)).run s = .ok (.ok (), { s with
      mem := setKernelFlatpt K s.mem i (windowPte (kernelFlatpt K s.mem i) p) }) := by
  simp only [windowPte]
  rw [i686KernelMapVirtToPhys, Prog.run_bind_ok (i686VirtToPte_run hi), Prog.run_bind_gets,
    Prog.run_bind_assert hp, Prog.run_bind_update, Prog.run_pure]

/-- **`kernel_map_virt_to_phys`** points a window to a frame. -/
lemma i686KernelMapVirtToPhys_wp (h : Opens K W t s) {i : ℕ} (hi : i ∈ W) (p : ℕ) :
    Prog.wp (i686KernelMapVirtToPhys K p (window i))
      (fun r s' => r = .ok () ∧ Opens K W t s' ∧ Shows K s'.mem i (p / 4096 % 2 ^ 20) ∧
        ∀ j, j ≠ i → kernelFlatpt K s'.mem j = kernelFlatpt K s.mem j)
      (fun _ => False) s := by
  have hlt := (h.mem.fresh i hi).1
  rw [Prog.wp_of_run (i686KernelMapVirtToPhys_run hlt (h.mem.opened i hi) p)]
  refine ⟨rfl, h.setMem (h.mem.remap hi (present_windowPte _ _)), ⟨hlt, ?_, ?_⟩, fun j hj => ?_⟩
  · rw [setKernelFlatpt_self, present_windowPte]
  · rw [setKernelFlatpt_self, physAddr_windowPte]
  · exact setKernelFlatpt_of_ne hj

end Alloc

/-! ## Accesses in a window -/

/-- The running page directory reaches all kernel pages, and is not itself a kernel page table. -/
structure Running (K : KernelImage) (s : Machine ρ) : Prop where
  linked : LinksKernel K s.mem (s.cr3 / 4096)
  apart : ¬K.HoldsTable (s.cr3 / 4096)

/-- A frame that is neither a kernel page table nor the running page directory. -/
structure PlainFrame (K : KernelImage) (cr3 f : ℕ) : Prop where
  notTable : ¬K.HoldsTable f
  notRunning : f ≠ cr3 / 4096

/-- The kernel address `v` is byte `at.2` of the frame `at.1`. -/
def Reaches (K : KernelImage) (mem : PhysMem) (v : ℕ) (loc : ℕ × ℕ) : Prop :=
  ∃ i, Shows K mem i loc.1 ∧ loc.2 < 4096 ∧ v = window i + loc.2

section Access

variable {s : Machine ρ} {W : Finset ℕ} {base mem mem' : PhysMem} {i f w v : ℕ} {x : Word}
  {loc : ℕ × ℕ}

lemma Running.congr (h : Running K s) (hmem : ∀ w, mem (s.cr3 / 4096) w = s.mem (s.cr3 / 4096) w) :
    Running K { s with mem := mem } := ⟨h.linked.congr hmem, h.apart⟩

lemma Running.write (h : Running K s) (hf : PlainFrame K s.cr3 f) :
    Running K { s with mem := s.mem.write f w x } :=
  h.congr fun _ => write_of_frame_ne (Ne.symm hf.notRunning)

lemma Opens.running {t : Machine ρ} (hW : Opens K W t s) (h : Running K t) : Running K s := by
  refine ⟨fun k hk => ?_, ?_⟩
  · rw [hW.cr3, hW.outside h.apart, h.linked k hk]
  · rw [hW.cr3]
    exact h.apart

lemma Running.writeByte (h : Running K s) {o b : ℕ} (hf : PlainFrame K s.cr3 f) :
    Running K { s with mem := s.mem.writeByte f o b } := h.write hf

lemma Shows.congr (h : Shows K mem i f)
    (hmem : kernelFlatpt K mem' i = kernelFlatpt K mem i) : Shows K mem' i f :=
  ⟨h.lt, by rw [hmem, h.present], by rw [hmem, h.frame]⟩

lemma Shows.write (h : Shows K mem i f) {f' : ℕ} (hf : ¬K.HoldsTable f') :
    Shows K (mem.write f' w x) i f := h.congr (kernelFlatpt_write_outside h.lt hf)

lemma Shows.opened (h : Shows K base i f) (hW : Opened K W base mem) : Shows K mem i f :=
  h.congr (hW.kept h.lt h.present)

lemma Shows.frame_lt (h : Shows K mem i f) : f < 2 ^ 20 := by
  rw [← h.frame]
  exact Field.get_lt _ _

lemma Reaches.write (h : Reaches K mem v loc) {f' : ℕ} (hf : ¬K.HoldsTable f') :
    Reaches K (mem.write f' w x) v loc := by
  rcases h with ⟨i, hi, hloc⟩
  exact ⟨i, hi.write hf, hloc⟩

lemma Reaches.writeByte (h : Reaches K mem v loc) {f' o b : ℕ} (hf : ¬K.HoldsTable f') :
    Reaches K (mem.writeByte f' o b) v loc := h.write hf

lemma Reaches.lt (h : Reaches K mem v loc) : v < 2 ^ 32 := by
  rcases h with ⟨i, hi, ho, rfl⟩
  have hlt := window_lt hi.lt
  omega

lemma Reaches.offset (h : Reaches K mem v loc) : v % 4096 = loc.2 := by
  rcases h with ⟨i, -, ho, rfl⟩
  unfold window highstart
  omega

/-- Bytes of a window are bytes of the frame it shows. -/
lemma Shows.reaches (h : Shows K mem i f) {o : ℕ} (ho : o < 4096) :
    Reaches K mem (window i + o) (f, o) := ⟨i, h, ho, rfl⟩

lemma accessFrame_run (h : Running K s) (hv : Reaches K s.mem v loc) :
    (accessFrame v).run s = .ok (loc.1, s) := by
  rcases hv with ⟨i, hi, ho, rfl⟩
  rw [accessFrame, Prog.run_bind_gets, mmuTranslate_kernel h.linked hi.lt ho, if_pos hi.present,
    hi.frame]
  rfl

lemma loadWord_run (h : Running K s) (hs : Shows K s.mem i f) (hw : w < 1024) :
    (loadWord (window i + 4 * w)).run s = .ok (s.mem f w, s) := by
  have hreach := hs.reaches (o := 4 * w) (by omega)
  rw [loadWord, Prog.run_bind_ok (accessFrame_run h hreach), Prog.run_gets, hreach.offset,
    Nat.mul_div_cancel_left _ (by norm_num)]

lemma modifyWord_run (h : Running K s) (hs : Shows K s.mem i f) (hw : w < 1024)
    (g : Word → Word) :
    (modifyWord (window i + 4 * w) g).run s
      = .ok ((), { s with mem := s.mem.write f w (g (s.mem f w)) }) := by
  have hreach := hs.reaches (o := 4 * w) (by omega)
  rw [modifyWord, Prog.run_bind_ok (accessFrame_run h hreach), Prog.run_update, hreach.offset,
    Nat.mul_div_cancel_left _ (by norm_num)]

lemma loadByte_run (h : Running K s) (hv : Reaches K s.mem v loc) :
    (loadByte v).run s = .ok (s.mem.byte loc.1 loc.2, s) := by
  rw [loadByte, Prog.run_bind_ok (accessFrame_run h hv), Prog.run_gets, hv.offset]

lemma storeByte_run (h : Running K s) (hv : Reaches K s.mem v loc) (b : ℕ) :
    (storeByte v b).run s = .ok ((), { s with mem := s.mem.writeByte loc.1 loc.2 b }) := by
  rw [storeByte, Prog.run_bind_ok (accessFrame_run h hv), Prog.run_update, hv.offset]

/-- The next byte of something that goes on is at the next address. -/
lemma Reaches.next (h : Reaches K mem (v + 1) loc) : wrap32 (v + 1) = v + 1 := wrap32_of_lt h.lt

/-- **Filling** a stretch of kernel memory, of which the first `m` bytes are done. -/
lemma memset_run {c m n : ℕ} {locs : ℕ → ℕ × ℕ} (h : Running K s)
    (hmem : s.mem = storeBytes base locs (fun _ => c % 256) m)
    (hto : ∀ i < n, Reaches K s.mem (v + i) (locs (m + i)) ∧ PlainFrame K s.cr3 (locs (m + i)).1) :
    (memset v c n).run s
      = .ok ((), { s with mem := storeBytes base locs (fun _ => c % 256) (m + n) }) := by
  induction n generalizing s v m with
  | zero =>
      rw [memset, Prog.run_pure, Nat.add_zero, ← hmem]
  | succ n ih =>
      have hfirst := hto 0 (Nat.succ_pos n)
      rw [Nat.add_zero, Nat.add_zero] at hfirst
      rw [memset, Prog.run_bind_ok (storeByte_run h hfirst.1 _)]
      have hmem' : s.mem.writeByte (locs m).1 (locs m).2 (c % 256)
          = storeBytes base locs (fun _ => c % 256) (m + 1) := by rw [storeBytes, hmem]
      cases n with
      | zero =>
          rw [memset, Prog.run_pure]
          exact congrArg (fun mem => Except.ok ((), { s with mem := mem })) hmem'
      | succ n =>
          have hnext := (hto 1 (by omega)).1.next
          rw [hnext, ih (h.writeByte hfirst.2) hmem' fun i hi => ?_]
          · rw [show m + 1 + (n + 1) = m + (n + 1 + 1) by omega]
          · have hi' := hto (i + 1) (by omega)
            rw [show v + 1 + i = v + (i + 1) by omega, show m + 1 + i = m + (i + 1) by omega]
            exact ⟨hi'.1.writeByte hfirst.2.notTable, hi'.2⟩

/-- **Wiping** a window wipes the frame it shows. -/
lemma memset_page_run (h : Running K s) (hs : Shows K s.mem i f) (hf : PlainFrame K s.cr3 f) :
    (memset (window i) 0 pgSize).run s = .ok ((), { s with mem := zeroFrame s.mem f }) := by
  obtain ⟨n, hn⟩ : ∃ n, n = pgSize := ⟨_, rfl⟩
  have hzero : zeroFrame s.mem f = storeBytes s.mem (fun o => (f, o)) (fun _ => 0 % 256) (0 + n) := by
    rw [Nat.zero_add]
    exact (storeBytes_zeroFrame hn).symm
  rw [hzero, ← hn]
  refine memset_run h rfl fun o ho => ⟨?_, hf⟩
  rw [Nat.zero_add]
  exact hs.reaches (by rw [hn, pgSize] at ho; exact ho)

/-- **Copying** a stretch of kernel memory, of which the first `m` bytes are done. -/
lemma memcpy_run {src m n : ℕ} {locs srcs : ℕ → ℕ × ℕ} {val : ℕ → ℕ} (h : Running K s)
    (hmem : s.mem = storeBytes base locs val m)
    (hto : ∀ i < n, Reaches K s.mem (v + i) (locs (m + i)) ∧ PlainFrame K s.cr3 (locs (m + i)).1)
    (hfrom : ∀ i < n, Reaches K s.mem (src + i) (srcs (m + i)) ∧
      base.byte (srcs (m + i)).1 (srcs (m + i)).2 = val (m + i) ∧
      ∀ j < m + n, (locs j).1 ≠ (srcs (m + i)).1) :
    (memcpy v src n).run s = .ok ((), { s with mem := storeBytes base locs val (m + n) }) := by
  induction n generalizing s v src m with
  | zero =>
      rw [memcpy, Prog.run_pure, Nat.add_zero, ← hmem]
  | succ n ih =>
      have hfirst := hto 0 (Nat.succ_pos n)
      rcases hfrom 0 (Nat.succ_pos n) with ⟨hread, hval, hapart⟩
      rw [Nat.add_zero, Nat.add_zero] at hfirst
      rw [Nat.add_zero, Nat.add_zero] at hread
      rw [Nat.add_zero] at hval hapart
      -- the byte to be read is not one of those written so far
      have hbyte : s.mem.byte (srcs m).1 (srcs m).2 = val m := by
        rw [hmem, byte_storeBytes_of_notMem, hval]
        intro i hi heq
        exact hapart i (by omega) (congrArg Prod.fst heq)
      rw [memcpy, Prog.run_bind_ok (loadByte_run h hread), hbyte,
        Prog.run_bind_ok (storeByte_run h hfirst.1 _)]
      have hmem' : s.mem.writeByte (locs m).1 (locs m).2 (val m)
          = storeBytes base locs val (m + 1) := by rw [storeBytes, hmem]
      cases n with
      | zero =>
          rw [memcpy, Prog.run_pure]
          exact congrArg (fun mem => Except.ok ((), { s with mem := mem })) hmem'
      | succ n =>
          have hnext := (hto 1 (by omega)).1.next
          have hnext' := (hfrom 1 (by omega)).1.next
          rw [hnext, hnext', ih (h.writeByte hfirst.2) hmem' (fun i hi => ?_) fun i hi => ?_]
          · rw [show m + 1 + (n + 1) = m + (n + 1 + 1) by omega]
          · have hi' := hto (i + 1) (by omega)
            rw [show v + 1 + i = v + (i + 1) by omega, show m + 1 + i = m + (i + 1) by omega]
            exact ⟨hi'.1.writeByte hfirst.2.notTable, hi'.2⟩
          · have hi' := hfrom (i + 1) (by omega)
            rw [show src + 1 + i = src + (i + 1) by omega,
              show m + 1 + i = m + (i + 1) by omega]
            refine ⟨hi'.1.writeByte hfirst.2.notTable, hi'.2.1, fun j hj => hi'.2.2 j (by omega)⟩

end Access

/-! ## Translations -/

section Translations

variable {W : Finset ℕ} {base mem mem' : PhysMem} {d f v w : ℕ} {t : Translation}

/-- The entries of page tables that are present are kept while windows are opened. -/
lemma Opened.entry_kept (h : Opened K W base mem) (hw : w < 1024)
    (hp : Entry.present.get (base f w) = 1) : mem f w = base f w := by
  by_cases hf : K.HoldsTable f
  · have hlo := hf.1
    have hhi := hf.2
    have hdiv : K.kernelPts + ((f - K.kernelPts) * 1024 + w) / 1024 = f := by omega
    have hmod : ((f - K.kernelPts) * 1024 + w) % 1024 = w := by omega
    have hflat : ∀ mem : PhysMem, kernelFlatpt K mem ((f - K.kernelPts) * 1024 + w) = mem f w := by
      intro mem
      rw [kernelFlatpt, hdiv, hmod]
    have hkept := h.kept (i := (f - K.kernelPts) * 1024 + w) (by omega) (by rw [hflat, hp])
    rwa [hflat, hflat] at hkept
  · exact h.outside f w hf

/-- **Translations are kept** while windows are opened. -/
lemma Opened.translation_kept (h : Opened K W base mem) (hv : v < 2 ^ 32)
    (ht : mmuTranslate base d v = some t) : mmuTranslate mem d v = some t := by
  unfold mmuTranslate at ht ⊢
  simp only at ht ⊢
  split_ifs at ht with hp
  have hpde := h.entry_kept (f := d) (w := v / 2 ^ 22) (by omega) hp.1
  have hpte := h.entry_kept (w := v / 2 ^ 12 % 2 ^ 10) (by omega) hp.2
  rw [hpde, hpte, if_pos hp]
  exact ht

/-- A translation depends on two entries. -/
lemma mmuTranslate_congr
    (hpde : mem' d (v / 2 ^ 22) = mem d (v / 2 ^ 22))
    (hpte : mem' (Entry.physAddr.get (mem d (v / 2 ^ 22))) (v / 2 ^ 12 % 2 ^ 10)
      = mem (Entry.physAddr.get (mem d (v / 2 ^ 22))) (v / 2 ^ 12 % 2 ^ 10)) :
    mmuTranslate mem' d v = mmuTranslate mem d v := by
  unfold mmuTranslate
  simp only [hpde, hpte]

/-- The kernel half as the running kernel sees it. -/
lemma reaches_of_translate (h : LinksKernel K mem d) (hlo : highstart ≤ v) (hv : v < 2 ^ 32)
    (ht : mmuTranslate mem d v = some t) : Reaches K mem v (t.frame, v % 4096) := by
  rcases exists_window hlo hv with ⟨i, hi, o, ho, rfl⟩
  rw [mmuTranslate_kernel h hi ho] at ht
  split_ifs at ht with hp
  obtain rfl := Option.some.inj ht
  have hreach : Reaches K mem (window i + o) (_, o) := Shows.reaches ⟨hi, hp, rfl⟩ ho
  rw [hreach.offset]
  exact hreach

end Translations

end Akaris
