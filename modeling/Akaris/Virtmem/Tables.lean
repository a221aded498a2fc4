import Akaris.Virtmem.Defs

/-!
# Page tables as memory

What the entries that the code writes say to the hardware, and how stores to one word of memory
show at the others.  `mmuTranslate_kernel` is the walk into the kernel half of a page directory
that is linked to `kernel_pts`: it ends in the entry of `kernel_flatpt` for that page, whichever
page directory it starts from.
-/

namespace Akaris

variable {ρ : Type} {K : KernelImage}

/-! ## Entries -/

section Entries

variable (p : Word) (addr flags : ℕ)

lemma bittestl_lt (field mask : ℕ) : bittestl field mask < 2 ^ 1 := by
  unfold bittestl
  split_ifs <;> norm_num

@[simp] lemma present_setPte :
    Entry.present.get (i686SetPte p addr flags) = bittestl flags i686PagePresent := by
  simp (disch := decide) only [i686SetPte, Field.get_set_of_disjoint, Field.get_set_self]
  exact Nat.mod_eq_of_lt (bittestl_lt _ _)

@[simp] lemma writable_setPte :
    Entry.writable.get (i686SetPte p addr flags) = bittestl flags i686PageWritable := by
  simp (disch := decide) only [i686SetPte, Field.get_set_of_disjoint, Field.get_set_self]
  exact Nat.mod_eq_of_lt (bittestl_lt _ _)

@[simp] lemma user_setPte :
    Entry.user.get (i686SetPte p addr flags) = bittestl flags i686PageUser := by
  simp (disch := decide) only [i686SetPte, Field.get_set_of_disjoint, Field.get_set_self]
  exact Nat.mod_eq_of_lt (bittestl_lt _ _)

@[simp] lemma physAddr_setPte :
    Entry.physAddr.get (i686SetPte p addr flags) = addr / 4096 % 2 ^ 20 := by
  simp (disch := decide) only [i686SetPte, Field.get_set_of_disjoint, Field.get_set_self]
  rw [Nat.shiftRight_eq_div_pow]
  rfl

@[simp] lemma present_setPde :
    Entry.present.get (i686SetPde p addr flags) = bittestl flags i686PagePresent := by
  simp (disch := decide) only [i686SetPde, Field.get_set_of_disjoint, Field.get_set_self]
  exact Nat.mod_eq_of_lt (bittestl_lt _ _)

@[simp] lemma writable_setPde :
    Entry.writable.get (i686SetPde p addr flags) = bittestl flags i686PageWritable := by
  simp (disch := decide) only [i686SetPde, Field.get_set_of_disjoint, Field.get_set_self]
  exact Nat.mod_eq_of_lt (bittestl_lt _ _)

@[simp] lemma user_setPde :
    Entry.user.get (i686SetPde p addr flags) = bittestl flags i686PageUser := by
  simp (disch := decide) only [i686SetPde, Field.get_set_of_disjoint, Field.get_set_self]
  exact Nat.mod_eq_of_lt (bittestl_lt _ _)

@[simp] lemma physAddr_setPde :
    Entry.physAddr.get (i686SetPde p addr flags) = addr / 4096 % 2 ^ 20 := by
  simp (disch := decide) only [i686SetPde, Field.get_set_of_disjoint, Field.get_set_self]
  rw [Nat.shiftRight_eq_div_pow]
  rfl

/-- Every bit-field is assigned, so nothing is left of the old entry. -/
lemma i686SetPde_eq : i686SetPde p addr flags = i686SetPde 0 addr flags := by
  refine BitVec.eq_of_getLsbD_eq fun i hi => ?_
  unfold i686SetPde
  iterate 11 refine Field.getLsbD_set_congr fun _ => ?_
  simp only [Entry.avail, Entry.global, Entry.pdeZero, Entry.pdeSize, Entry.accessed, Entry.user,
    Entry.cacheDisable, Entry.writeThrough, Entry.writable, Entry.present, Entry.physAddr] at *
  omega

end Entries

/-- The entry of a page directory for kernel table `k`. -/
def kernelPde (K : KernelImage) (k : ℕ) : Word :=
  i686SetPde 0 ((K.kernelPts + k) * pgSize) (i686PagePresent ||| i686PageWritable)

/-- The entry of a page directory for the user page table in frame `t`. -/
def userPde (t : ℕ) : Word :=
  i686SetPde 0 (t * pgSize) (i686PagePresent ||| i686PageWritable ||| i686PageUser)

lemma physAddr_frame {t : ℕ} (ht : t < 2 ^ 20) : t * 4096 / 4096 % 2 ^ 20 = t := by
  omega

@[simp] lemma present_kernelPde (k : ℕ) : Entry.present.get (kernelPde K k) = 1 :=
  present_setPde _ _ _

@[simp] lemma writable_kernelPde (k : ℕ) : Entry.writable.get (kernelPde K k) = 1 :=
  writable_setPde _ _ _

@[simp] lemma user_kernelPde (k : ℕ) : Entry.user.get (kernelPde K k) = 0 :=
  user_setPde _ _ _

lemma physAddr_kernelPde {k : ℕ} (hk : k < 256) :
    Entry.physAddr.get (kernelPde K k) = K.kernelPts + k := by
  have hrange := K.kernelPts_range
  rw [kernelPde, physAddr_setPde, pgSize]
  exact physAddr_frame (by omega)

@[simp] lemma present_userPde (t : ℕ) : Entry.present.get (userPde t) = 1 :=
  present_setPde _ _ _

@[simp] lemma writable_userPde (t : ℕ) : Entry.writable.get (userPde t) = 1 :=
  writable_setPde _ _ _

@[simp] lemma user_userPde (t : ℕ) : Entry.user.get (userPde t) = 1 :=
  user_setPde _ _ _

lemma physAddr_userPde {t : ℕ} (ht : t < 2 ^ 20) : Entry.physAddr.get (userPde t) = t := by
  rw [userPde, physAddr_setPde, pgSize]
  exact physAddr_frame ht

/-! ## Memory -/

section Memory

variable {mem : PhysMem} {f w f' w' : ℕ} {x : Word}

@[simp] lemma write_self : mem.write f w x f w = x := if_pos ⟨rfl, rfl⟩

lemma write_of_frame_ne (h : f' ≠ f) : mem.write f w x f' w' = mem f' w' :=
  if_neg fun hc => h hc.1

lemma write_of_word_ne (h : w' ≠ w) : mem.write f w x f' w' = mem f' w' :=
  if_neg fun hc => h hc.2

lemma byteField_disjoint {o o' : ℕ} (h : o ≠ o') (hw : o / 4 = o' / 4) :
    (byteField o).Disjoint (byteField o') := by
  have hmod : o % 4 ≠ o' % 4 := by omega
  simp only [Field.Disjoint, byteField]
  omega

@[simp] lemma byte_writeByte_self {b : ℕ} (hb : b < 256) (o : ℕ) :
    (mem.writeByte f o b).byte f o = b := by
  rw [PhysMem.byte, PhysMem.writeByte, write_self, Field.get_set_self]
  exact Nat.mod_eq_of_lt hb

lemma byte_writeByte_of_ne {o o' b : ℕ} (h : ¬(f' = f ∧ o' = o)) :
    (mem.writeByte f o b).byte f' o' = mem.byte f' o' := by
  rw [PhysMem.byte, PhysMem.writeByte, PhysMem.write]
  by_cases hc : f' = f ∧ o' / 4 = o / 4
  · rcases hc with ⟨rfl, hw⟩
    rw [if_pos ⟨rfl, hw⟩, PhysMem.byte, hw]
    exact Field.get_set_of_disjoint (byteField_disjoint (fun ho => h ⟨rfl, ho⟩) hw) _ _
  · rw [if_neg hc, PhysMem.byte]

lemma byte_lt (mem : PhysMem) (f o : ℕ) : mem.byte f o < 256 := Field.get_lt _ _

/-- A word is determined by its bytes. -/
lemma word_ext {mem' : PhysMem} (h : ∀ j < 4, mem.byte f (4 * w + j) = mem'.byte f' (4 * w' + j)) :
    mem f w = mem' f' w' := by
  refine Field.ext fun i hi => ?_
  have hbyte := h (i / 8) (by omega)
  have hw : (4 * w + i / 8) / 4 = w := by omega
  have hw' : (4 * w' + i / 8) / 4 = w' := by omega
  have hf : byteField (4 * w' + i / 8) = byteField (4 * w + i / 8) := by
    rw [byteField, byteField, Field.mk.injEq]
    omega
  rw [PhysMem.byte, PhysMem.byte, hw, hw', hf] at hbyte
  refine ⟨byteField (4 * w + i / 8), ?_, hbyte⟩
  simp only [byteField]
  omega

/-- Frame `f` with zeros in it. -/
def zeroFrame (mem : PhysMem) (f : ℕ) : PhysMem :=
  fun f' w' => if f' = f ∧ w' < 1024 then 0 else mem f' w'

lemma zeroFrame_of_ne (h : f' ≠ f) : zeroFrame mem f f' w' = mem f' w' :=
  if_neg fun hc => h hc.1

lemma zeroFrame_self (h : w' < 1024) : zeroFrame mem f f w' = 0 := if_pos ⟨rfl, h⟩

/-! ### A sequence of bytes -/

/-- Store the bytes `val 0`, `val 1`, …, `n` of them, at the places `locs 0`, `locs 1`, …. -/
def storeBytes (base : PhysMem) (locs : ℕ → ℕ × ℕ) (val : ℕ → ℕ) : (n : ℕ) → PhysMem
  | 0 => base
  | n + 1 => (storeBytes base locs val n).writeByte (locs n).1 (locs n).2 (val n)

section StoreBytes

variable {base : PhysMem} {locs : ℕ → ℕ × ℕ} {val : ℕ → ℕ} {n : ℕ}

lemma storeBytes_of_frame_ne (h : ∀ i < n, (locs i).1 ≠ f) :
    storeBytes base locs val n f w = base f w := by
  induction n with
  | zero => rfl
  | succ n ih =>
      rw [storeBytes, PhysMem.writeByte, write_of_frame_ne (h n (Nat.lt_succ_self n)).symm,
        ih fun i hi => h i (by omega)]

lemma byte_storeBytes_of_notMem {o : ℕ} (h : ∀ i < n, locs i ≠ (f, o)) :
    (storeBytes base locs val n).byte f o = base.byte f o := by
  induction n with
  | zero => rfl
  | succ n ih =>
      rw [storeBytes, byte_writeByte_of_ne, ih fun i hi => h i (by omega)]
      rintro ⟨rfl, rfl⟩
      exact h n (Nat.lt_succ_self n) rfl

lemma byte_storeBytes (locs : ℕ → ℕ × ℕ) {i : ℕ}
    (hinj : ∀ i < n, ∀ j < n, locs i = locs j → i = j) (hi : i < n) (hval : val i < 256) :
    (storeBytes base locs val n).byte (locs i).1 (locs i).2 = val i := by
  induction n with
  | zero => omega
  | succ n ih =>
      rw [storeBytes]
      by_cases heq : i = n
      · rw [heq, byte_writeByte_self (heq ▸ hval)]
      · rw [byte_writeByte_of_ne]
        · exact ih (fun i hi j hj => hinj i (by omega) j (by omega)) (by omega)
        · rintro ⟨h1, h2⟩
          exact heq (hinj i hi n (Nat.lt_succ_self n) (Prod.ext h1 h2))

/-- Words that no stored byte lies in are kept. -/
lemma storeBytes_of_word_ne (h : ∀ i < n, (locs i).1 = f → (locs i).2 / 4 ≠ w) :
    storeBytes base locs val n f w = base f w := by
  refine word_ext fun j hj => byte_storeBytes_of_notMem fun i hi heq => ?_
  refine h i hi (congrArg Prod.fst heq) ?_
  rw [congrArg Prod.snd heq]
  show (4 * w + j) / 4 = w
  omega

/-- Stores to a frame only depend on what is in the frame. -/
lemma storeBytes_congr {base' : PhysMem} (h : ∀ w, base f w = base' f w) (w : ℕ) :
    storeBytes base locs val n f w = storeBytes base' locs val n f w := by
  induction n generalizing w with
  | zero => exact h w
  | succ n ih =>
      rw [storeBytes, storeBytes, PhysMem.writeByte, PhysMem.writeByte, PhysMem.write,
        PhysMem.write]
      by_cases hc : f = (locs n).1 ∧ w = (locs n).2 / 4
      · rw [if_pos hc, if_pos hc, ← hc.1, ih]
      · rw [if_neg hc, if_neg hc, ih]

lemma storeBytes_eq {locs' : ℕ → ℕ × ℕ} {val' : ℕ → ℕ} (hlocs : ∀ i < n, locs i = locs' i)
    (hval : ∀ i < n, val i = val' i) : storeBytes base locs val n = storeBytes base locs' val' n := by
  induction n with
  | zero => rfl
  | succ n ih =>
      rw [storeBytes, storeBytes, hlocs n (Nat.lt_succ_self n), hval n (Nat.lt_succ_self n),
        ih (fun i hi => hlocs i (by omega)) fun i hi => hval i (by omega)]

/-- Some bytes, and then more of them. -/
lemma storeBytes_add (m n : ℕ) :
    storeBytes (storeBytes base locs val m) (fun i => locs (m + i)) (fun i => val (m + i)) n =
      storeBytes base locs val (m + n) := by
  induction n with
  | zero => rfl
  | succ n ih => rw [storeBytes, ih, ← Nat.add_assoc, storeBytes]

/-- Zeros stored at all bytes of a frame. -/
lemma storeBytes_zeroFrame (hn : n = 4096) :
    storeBytes base (fun o => (f, o)) (fun _ => 0) n = zeroFrame base f := by
  have hinj : ∀ i < n, ∀ j < n, (f, i) = (f, j) → i = j := fun i _ j _ h => congrArg Prod.snd h
  funext f' w
  by_cases hc : f' = f ∧ w < 1024
  · rcases hc with ⟨rfl, hw⟩
    have hzero : ∀ j < 4, (storeBytes base (fun o => (f', o)) (fun _ => 0) n).byte f' (4 * w + j)
        = (zeroFrame base f').byte f' (4 * w + j) := by
      intro j hj
      have hdiv : (4 * w + j) / 4 = w := by omega
      have hbyte : (zeroFrame base f').byte f' (4 * w + j) = 0 := by
        rw [PhysMem.byte, hdiv, zeroFrame_self hw, Field.get_zero]
      rw [hbyte]
      exact byte_storeBytes (fun o => (f', o)) hinj (by omega) (by norm_num)
    exact word_ext hzero
  · rw [zeroFrame, if_neg hc]
    refine storeBytes_of_word_ne fun i hi hf hw => hc ⟨hf.symm, ?_⟩
    have hi' : i / 4 = w := hw
    omega

end StoreBytes

end Memory

/-! ## The kernel tables -/

/-- The frame `f` holds one of the tables `kernel_pts`. -/
def KernelImage.HoldsTable (K : KernelImage) (f : ℕ) : Prop :=
  K.kernelPts ≤ f ∧ f < K.kernelPts + 256

section KernelTables

variable {mem : PhysMem} {i j f w : ℕ} {x : Word}

lemma holdsTable_of_lt (h : i < 2 ^ 18) : K.HoldsTable (K.kernelPts + i / 1024) := by
  unfold KernelImage.HoldsTable
  omega

@[simp] lemma setKernelFlatpt_self : kernelFlatpt K (setKernelFlatpt K mem i x) i = x := write_self

lemma setKernelFlatpt_of_ne (h : j ≠ i) :
    kernelFlatpt K (setKernelFlatpt K mem i x) j = kernelFlatpt K mem j := by
  refine if_neg fun hc => h ?_
  omega

lemma setKernelFlatpt_outside (hi : i < 2 ^ 18) (hf : ¬K.HoldsTable f) :
    setKernelFlatpt K mem i x f w = mem f w := by
  refine write_of_frame_ne ?_
  rintro rfl
  exact hf (holdsTable_of_lt hi)

lemma kernelFlatpt_write_outside (hi : i < 2 ^ 18) (hf : ¬K.HoldsTable f) :
    kernelFlatpt K (mem.write f w x) i = kernelFlatpt K mem i := by
  refine write_of_frame_ne ?_
  rintro rfl
  exact hf (holdsTable_of_lt hi)

lemma kernelFlatpt_congr {mem' : PhysMem} (hi : i < 2 ^ 18)
    (h : ∀ f w, K.HoldsTable f → mem' f w = mem f w) :
    kernelFlatpt K mem' i = kernelFlatpt K mem i := h _ _ (holdsTable_of_lt hi)

/-- The kernel half of the page directory in frame `d` points to `kernel_pts`. -/
def LinksKernel (K : KernelImage) (mem : PhysMem) (d : ℕ) : Prop :=
  ∀ k < 256, mem d (768 + k) = kernelPde K k

lemma LinksKernel.congr {mem' : PhysMem} {d : ℕ} (h : LinksKernel K mem d)
    (heq : ∀ w, mem' d w = mem d w) : LinksKernel K mem' d := fun k hk => by rw [heq, h k hk]

/-- The virtual address of kernel page `i`. -/
def window (i : ℕ) : ℕ := i * 4096 + highstart

lemma window_lt (h : i < 2 ^ 18) : window i + 4096 ≤ 2 ^ 32 := by
  unfold window highstart
  omega

lemma window_inj (h : window i = window j) : i = j := by
  unfold window at h
  omega

/-- **The walk into the kernel half** ends in `kernel_flatpt`. -/
lemma mmuTranslate_kernel {d o : ℕ} (h : LinksKernel K mem d) (hi : i < 2 ^ 18)
    (ho : o < 4096) :
    mmuTranslate mem d (window i + o) =
      if Entry.present.get (kernelFlatpt K mem i) = 1 then
        some {
          frame := Entry.physAddr.get (kernelFlatpt K mem i)
          writable := Entry.writable.get (kernelFlatpt K mem i) == 1
          user := false }
      else none := by
  have hpde : (window i + o) / 2 ^ 22 = 768 + i / 1024 := by
    unfold window highstart
    omega
  have hpte : (window i + o) / 2 ^ 12 % 2 ^ 10 = i % 1024 := by
    unfold window highstart
    omega
  have hk : i / 1024 < 256 := by omega
  simp only [mmuTranslate, hpde, hpte, h _ hk, physAddr_kernelPde hk]
  by_cases hp : Entry.present.get (kernelFlatpt K mem i) = 1
  · rw [if_pos hp, if_pos ⟨present_kernelPde _, hp⟩]
    simp [kernelFlatpt]
  · rw [if_neg hp, if_neg fun hc => hp hc.2]

/-- Every kernel address lies in a kernel page. -/
lemma exists_window {v : ℕ} (hlo : highstart ≤ v) (hhi : v < 2 ^ 32) :
    ∃ i < 2 ^ 18, ∃ o < 4096, v = window i + o := by
  unfold highstart at hlo
  refine ⟨(v - highstart) / 4096, ?_, (v - highstart) % 4096, ?_, ?_⟩
  · unfold highstart
    omega
  · omega
  · unfold window highstart
    omega

-- deciding equations between windows would count up to `highstart`
attribute [irreducible] window

end KernelTables

/-! ## A machine to run on -/

/-- A kernel whose page directory is in frame 1 and whose tables follow. -/
def smallImage : KernelImage where
  kernelPd := 1
  kernelPts := 2
  kernelPd_range := by norm_num
  kernelPts_range := by norm_num
  apart := by norm_num

/-- A physical memory manager that has no page. -/
def noLocalmem : Localmem Unit where
  pageAlloc _ := (.error .oom, ())
  pageFree _ _ := (.ok (), ())
  free _ := ∅
  free_range := by simp
  pageAlloc_ok := by simp
  pageAlloc_free := by simp

/-- The machine with no kernel page present, running in `kernel_pd`. -/
def smallMachine : Machine Unit where
  mem f w := if f = 1 ∧ 768 ≤ w ∧ w < 1024 then kernelPde smallImage (w - 768) else 0
  cr3 := 4096
  localmem := ()
  as _ := ⟨0, []⟩

lemma smallMachine_linksKernel : LinksKernel smallImage smallMachine.mem 1 := by
  intro k hk
  have hin : 1 = 1 ∧ 768 ≤ 768 + k ∧ 768 + k < 1024 := by omega
  show (if 1 = 1 ∧ 768 ≤ 768 + k ∧ 768 + k < 1024 then kernelPde smallImage (768 + k - 768)
    else 0) = kernelPde smallImage k
  rw [if_pos hin, Nat.add_sub_cancel_left]

end Akaris
