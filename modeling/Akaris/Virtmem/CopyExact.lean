import Akaris.Virtmem.Copy

/-!
# Copies are exact

A copy of a range that can be copied, in either direction.  The loop copies one chunk after the
other, the part of the range that lies in one page; `copyAlt_run` is the induction over the chunks,
with the bytes that are done as `storeBytes` and everything else the same but for the windows that
were opened.  Addresses move with the wrap-around of the code, which a range that ends at `2 ^ 32`
reaches.

A copy takes one kernel page for the mapping and two for each lookup, and gives none back: the claim
that only the entry of the mapping changes fails, `copy_takes_lookup_pages`.

The first page of the address space is special.  The walk does not point its window there, so what
`user_get_page` returns is up to the window; for all other pages it is the frame behind the page,
`looksUp_of_mapped`.

* **`copies_are_exact`** — copies in both directions are exact, and what was copied to the user comes
  back.
-/

namespace Akaris

variable {ρ : Type} {K : KernelImage} {L : Localmem ρ}

-- the rules are all that is used of it: computing it would run the program
attribute [local irreducible] Prog.wp

/-- The address `v` is mapped by the page directory in frame `d`. -/
def Mapped (mem : PhysMem) (d v : ℕ) : Prop := (mmuTranslate mem d v).isSome = true

/-- Where the address `v` leads from the page directory in frame `d`: a frame, and a byte of it. -/
def placeAt (mem : PhysMem) (d v : ℕ) : ℕ × ℕ :=
  ((mmuTranslate mem d v).elim 0 Translation.frame, v % 4096)

/-- The places of a user range of the context `c`. -/
abbrev Machine.userPlace (s : Machine ρ) (c u : ℕ) : ℕ → ℕ × ℕ :=
  fun i => placeAt s.mem (c / 4096 % 2 ^ 20) (u + i)

/-- The places of a kernel buffer. -/
abbrev Machine.kernelPlace (s : Machine ρ) (buf : ℕ) : ℕ → ℕ × ℕ :=
  fun i => placeAt s.mem (s.cr3 / 4096) (buf + i)

/-- The byte at a place. -/
def Machine.byteAt (s : Machine ρ) (p : ℕ × ℕ) : ℕ := s.mem.byte p.1 p.2

/-- `user_get_page` returns the frame behind `v`, whichever windows were opened before. -/
def LooksUp (K : KernelImage) (L : Localmem ρ) (s : Machine ρ) (c v : ℕ) : Prop :=
  ∀ W s₁, Opens K W s s₁ → 2 ≤ freeWindows K s₁.mem →
    ∃ s₂, (i686UserGetPage K L c v).run s₁
      = .ok (.ok ((placeAt s.mem (c / 4096 % 2 ^ 20) v).1 * 4096), s₂)

section Exact

variable {s t e : Machine ρ} {W : Finset ℕ} {base mem : PhysMem} {c u v d len k n m rem j : ℕ}

/-! ## Places -/

lemma placeAt_of_translate {x : Translation} (h : mmuTranslate mem d v = some x) :
    placeAt mem d v = (x.frame, v % 4096) := by
  rw [placeAt, h]
  rfl

lemma Mapped.translate (h : Mapped mem d v) :
    ∃ x, mmuTranslate mem d v = some x ∧ x.frame = (placeAt mem d v).1 := by
  rcases Option.isSome_iff_exists.mp h with ⟨x, hx⟩
  exact ⟨x, hx, by rw [placeAt_of_translate hx]⟩

/-- The entry behind a mapped address. -/
lemma Mapped.entries (h : Mapped mem d v) : Entry.present.get (mem d (v / 2 ^ 22)) = 1 ∧
    Entry.present.get (mem (Entry.physAddr.get (mem d (v / 2 ^ 22))) (v / 2 ^ 12 % 2 ^ 10)) = 1 ∧
    (placeAt mem d v).1
      = Entry.physAddr.get (mem (Entry.physAddr.get (mem d (v / 2 ^ 22))) (v / 2 ^ 12 % 2 ^ 10)) := by
  rcases h.translate with ⟨x, hx, hframe⟩
  rw [← hframe]
  unfold mmuTranslate at hx
  simp only at hx
  split_ifs at hx with hp
  obtain rfl := Option.some.inj hx
  exact ⟨hp.1, hp.2, rfl⟩

lemma Mapped.frame_lt (h : Mapped mem d v) : (placeAt mem d v).1 < 2 ^ 20 := by
  rw [h.entries.2.2]
  exact Field.get_lt _ _

/-- The bytes of a page follow one another. -/
lemma placeAt_add (h : v % 4096 + m < 4096) :
    placeAt mem d (v + m) = ((placeAt mem d v).1, v % 4096 + m) := by
  have hpde : (v + m) / 2 ^ 22 = v / 2 ^ 22 := by omega
  have hpte : (v + m) / 2 ^ 12 % 2 ^ 10 = v / 2 ^ 12 % 2 ^ 10 := by omega
  have hoff : (v + m) % 4096 = v % 4096 + m := by omega
  rw [placeAt, placeAt, hoff, mmuTranslate, mmuTranslate, hpde, hpte]

/-- Translations are kept by opening windows, and by stores to other frames than the tables. -/
lemma translate_stored {locs : ℕ → ℕ × ℕ} {val : ℕ → ℕ} {x : Translation}
    (hopened : Opened K W (storeBytes base locs val n) mem) (hv : v < 2 ^ 32)
    (hlocs : ∀ i < n, (locs i).1 ≠ d ∧ (locs i).1 ≠ Entry.physAddr.get (base d (v / 2 ^ 22)))
    (h : mmuTranslate base d v = some x) : mmuTranslate mem d v = some x := by
  refine hopened.translation_kept hv ?_
  rw [← h]
  exact mmuTranslate_congr (storeBytes_of_frame_ne fun i hi => (hlocs i hi).1)
    (storeBytes_of_frame_ne fun i hi => (hlocs i hi).2)

/-! ## Lookups -/

/-- **A lookup** of a mapped address opens two windows, and finds the frame unless it is in the
first page. -/
lemma i686UserGetPage_run (hrun : Running K t) (hd : ¬K.HoldsTable (c / 4096 % 2 ^ 20))
    (hv : v < 2 ^ 32) (hmapped : Mapped t.mem (c / 4096 % 2 ^ 20) v)
    (hfree : 2 ≤ freeWindows K t.mem) :
    ∃ r t', (i686UserGetPage K L c v).run t = .ok (r, t') ∧ (∃ W, Opens K W t t' ∧ W.card = 2) ∧
      (4096 ≤ v → r = .ok ((placeAt t.mem (c / 4096 % 2 ^ 20) v).1 * 4096)) := by
  rcases hmapped.entries with ⟨h1, hpte, hplace⟩
  have hnot0 : Entry.present.get (t.mem (c / 4096 % 2 ^ 20) (v / 2 ^ 22)) = 0 → CanWipe K L t := by
    intro h0
    rw [h1] at h0
    exact absurd h0 one_ne_zero
  rcases Prog.wp_returns (i686UserGetPage_wp hrun hd hv hnot0) with
    ⟨r, t', hrun', ⟨W, t₁, f, r', hwalked, rfl⟩ | ⟨-, ctx, W, hfailed⟩⟩
  · rcases hwalked.found h1 with ⟨rfl, hcard, hf⟩
    refine ⟨_, t', hrun', ⟨W, hwalked.opens, hcard⟩, fun hv4096 => ?_⟩
    have hentry := hwalked.opens.mem.entry_kept (w := v / 2 ^ 12 % 2 ^ 10) (by omega) hpte
    rw [hf (by omega), hentry, hplace]
  · have hfew := hfailed.few
    rw [← hfailed.full] at hfew
    omega

/-- The pages other than the first are looked up as they are mapped. -/
lemma looksUp_of_mapped (hrun : Running K s) (hd : ¬K.HoldsTable (c / 4096 % 2 ^ 20))
    (hv : v < 2 ^ 32) (h4096 : 4096 ≤ v) (hmapped : Mapped s.mem (c / 4096 % 2 ^ 20) v) :
    LooksUp K L s c v := by
  intro W s₁ hopens hfree
  rcases hmapped.translate with ⟨x, hx, hframe⟩
  have hx₁ := hopens.mem.translation_kept hv hx
  have hmapped₁ : Mapped s₁.mem (c / 4096 % 2 ^ 20) v := Option.isSome_iff_exists.mpr ⟨x, hx₁⟩
  rcases i686UserGetPage_run (hopens.running hrun) hd hv hmapped₁ hfree with ⟨r, s₂, hrun', -, hr⟩
  refine ⟨s₂, ?_⟩
  rw [hrun', hr h4096, placeAt_of_translate hx₁, hframe]

/-! ## Chunks -/

/-- How much of a range lies in its first page. -/
def chunk (a rem : ℕ) : ℕ := min rem (4096 - a % 4096)

lemma chunk_pos (h : 0 < rem) (a : ℕ) : 0 < chunk a rem := by
  unfold chunk
  omega

lemma chunk_le (a rem : ℕ) : chunk a rem ≤ rem := Nat.min_le_left _ _

lemma chunk_offset (h : m < chunk v rem) : v % 4096 + m < 4096 := by
  unfold chunk at h
  omega

lemma pagesIn_chunk (h : 0 < rem) (a : ℕ) :
    pagesIn a rem = 1 + pagesIn (a + chunk a rem) (rem - chunk a rem) := by
  unfold pagesIn chunk
  rw [if_neg (by omega)]
  by_cases hlast : rem ≤ 4096 - a % 4096
  · rw [Nat.min_eq_left hlast, Nat.sub_self, if_pos rfl]
    omega
  · rw [Nat.min_eq_right (by omega), if_neg (by omega)]
    omega

lemma copyLength_eq (h : rem < 2 ^ 31) (a : ℕ) : copyLength 4096 a rem = (chunk a rem : ℕ) := by
  have hoff : a % 4096 < 4096 := Nat.mod_lt _ (by norm_num)
  have hsub : sub32 4096 (a % 4096) = 4096 - a % 4096 := sub32_of_le (by omega) (by norm_num)
  rw [copyLength, hsub, chunk, toLong, toLong, if_pos h, if_pos (by omega)]
  omega

/-! ## Copying a chunk -/

section Chunk

variable {locs srcs : ℕ → ℕ × ℕ} {val : ℕ → ℕ} {a f : ℕ}

/-- Copying, from the start. -/
lemma memcpy_all_run (h : Running K e)
    (hto : ∀ i < n, Reaches K e.mem (v + i) (locs i) ∧ PlainFrame K e.cr3 (locs i).1)
    (hfrom : ∀ i < n, Reaches K e.mem (a + i) (srcs i) ∧
      e.mem.byte (srcs i).1 (srcs i).2 = val i ∧ ∀ j < n, (locs j).1 ≠ (srcs i).1) :
    (memcpy v a n).run e = .ok ((), { e with mem := storeBytes e.mem locs val n }) := by
  have hto' : ∀ i < n, Reaches K e.mem (v + i) (locs (0 + i)) ∧
      PlainFrame K e.cr3 (locs (0 + i)).1 := by
    intro i hi
    rw [Nat.zero_add]
    exact hto i hi
  have hfrom' : ∀ i < n, Reaches K e.mem (a + i) (srcs (0 + i)) ∧
      e.mem.byte (srcs (0 + i)).1 (srcs (0 + i)).2 = val (0 + i) ∧
      ∀ j < 0 + n, (locs j).1 ≠ (srcs (0 + i)).1 := by
    intro i hi
    rw [Nat.zero_add, Nat.zero_add]
    exact hfrom i hi
  have hrun := memcpy_run h rfl hto' hfrom'
  rwa [Nat.zero_add] at hrun

lemma wrap32_mapping (hj : j < 2 ^ 18) (a : ℕ) :
    wrap32 (a % 4096 + window j) = window j + a % 4096 := by
  have hlt := window_lt hj
  have hoff : a % 4096 < 4096 := Nat.mod_lt _ (by norm_num)
  rw [Nat.add_comm, wrap32_of_lt (by omega)]

/-- **A chunk from the user**: the mapping shows the frame `f`, and the bytes go to `locs`. -/
lemma copyPartialPageFromUser_run (hrun : Running K e) (hshort : rem < 2 ^ 31)
    (hshows : Shows K e.mem j f)
    (hto : ∀ i < chunk v rem, Reaches K e.mem (a + i) (locs i) ∧ PlainFrame K e.cr3 (locs i).1)
    (hapart : ∀ i < chunk v rem, (locs i).1 ≠ f) :
    (copyPartialPageFromUser (i686Cpu K L) a v (window j) rem).run e
      = .ok ((chunk v rem : ℕ), { e with
          mem := storeBytes e.mem locs (fun i => e.mem.byte f (v % 4096 + i)) (chunk v rem) }) := by
  have hcopy : ((i686Cpu K L).memcpy a (window j + v % 4096) (chunk v rem)).run e
      = .ok ((), { e with
          mem := storeBytes e.mem locs (fun i => e.mem.byte f (v % 4096 + i)) (chunk v rem) }) := by
    have hread : ∀ i < chunk v rem, Reaches K e.mem (window j + v % 4096 + i) (f, v % 4096 + i) := by
      intro i hi
      rw [Nat.add_assoc]
      exact hshows.reaches (chunk_offset hi)
    exact memcpy_all_run hrun hto fun i hi => ⟨hread i hi, rfl, hapart⟩
  have hsize : (i686Cpu K L).physmemPageSize = 4096 := rfl
  have hchunk := chunk_le v rem
  simp only [copyPartialPageFromUser, hsize, wrap32_mapping hshows.lt v, copyLength_eq hshort v]
  rw [ofLong_of_lt (by omega), Prog.run_bind_ok hcopy, Prog.run_pure]

/-- **A chunk to the user**: the mapping shows the frame `f`, and the bytes come from `srcs`. -/
lemma copyPartialPageToUser_run (hrun : Running K e) (hshort : rem < 2 ^ 31)
    (hshows : Shows K e.mem j f) (hf : PlainFrame K e.cr3 f)
    (hfrom : ∀ i < chunk v rem, Reaches K e.mem (a + i) (srcs i) ∧ (srcs i).1 ≠ f) :
    (copyPartialPageToUser (i686Cpu K L) v a (window j) rem).run e
      = .ok ((chunk v rem : ℕ), { e with
          mem := storeBytes e.mem (fun i => (f, v % 4096 + i))
            (fun i => e.mem.byte (srcs i).1 (srcs i).2) (chunk v rem) }) := by
  have hcopy : ((i686Cpu K L).memcpy (window j + v % 4096) a (chunk v rem)).run e
      = .ok ((), { e with
          mem := storeBytes e.mem (fun i => (f, v % 4096 + i))
            (fun i => e.mem.byte (srcs i).1 (srcs i).2) (chunk v rem) }) := by
    refine memcpy_all_run hrun (fun i hi => ⟨?_, hf⟩)
      fun i hi => ⟨(hfrom i hi).1, rfl, fun _ _ => (hfrom i hi).2.symm⟩
    rw [Nat.add_assoc]
    exact hshows.reaches (chunk_offset hi)
  have hsize : (i686Cpu K L).physmemPageSize = 4096 := rfl
  have hchunk := chunk_le v rem
  simp only [copyPartialPageToUser, hsize, wrap32_mapping hshows.lt v, copyLength_eq hshort v]
  rw [ofLong_of_lt (by omega), Prog.run_bind_ok hcopy, Prog.run_pure]

end Chunk

/-! ## The loop -/

section Loop

variable {ε σ : Type} {dst src p : ℕ} {user : ℕ → ℕ → ℕ} {mapping phys : Option ℕ}

lemma callVirtmem_run {α : Type} {x : Prog ε σ α} {a : α} {s s' : σ}
    (h : x.run s = .ok (a, s')) : (callVirtmem x).run s = .ok (a, s') :=
  Prog.run_zoom_ok (t := s) h

@[simp] lemma storeOk_ok (v : ℕ) (x : Option ℕ) : storeOk (.ok v) x = some v := rfl

lemma wrap32_add (a b : ℕ) : wrap32 (wrap32 a + b) = wrap32 (a + b) := by
  unfold wrap32
  omega

/-- One iteration of the loop: how much it copied, and what `src_phys` or `dst_phys` is then. -/
def copyAltStep (cpu : Cpu ε σ) (ctx : ℕ) (user : ℕ → ℕ → ℕ)
    (copyPage : ℕ → ℕ → ℕ → ℕ → Prog ε σ ℤ) (mapping : Option ℕ) (dst src len : ℕ)
    (phys : Option ℕ) : Prog (AsFault ε) σ (ℤ × Option ℕ) := do
  let r ← callVirtmem (cpu.virtmemUserGetPage ctx (user dst src))
  let phys := storeOk r phys
  let p ← readStored phys
  let m ← readStored mapping
  let _ ← callVirtmem (cpu.virtmemKernelMapVirtToPhys p m)
  let amtCopied ← callVirtmem (copyPage dst src m len)
  return (amtCopied, phys)

lemma copyAlt_succ (cpu : Cpu ε σ) (copyPage : ℕ → ℕ → ℕ → ℕ → Prog ε σ ℤ) (hrem : rem ≠ 0) :
    copyAlt cpu c user copyPage mapping (n + 1) dst src rem phys =
      copyAltStep cpu c user copyPage mapping dst src rem phys >>= fun x =>
        copyAlt cpu c user copyPage mapping n (wrap32 (dst + ofLong x.1))
          (wrap32 (src + ofLong x.1)) (sub32 rem (ofLong x.1)) x.2 := by
  rw [copyAlt, if_neg hrem, copyAltStep]
  simp only [bind_assoc, pure_bind]

/-- **The rule for the loop**: what every iteration keeps, with `k` bytes done, holds in the end. -/
lemma copyAlt_rule {cpu : Cpu ε σ} {copyPage : ℕ → ℕ → ℕ → ℕ → Prog ε σ ℤ} {x : σ}
    {I : ℕ → Option ℕ → σ → Prop} (hlen : len < 2 ^ 32)
    (hstep : ∀ k phys x, k < len → I k phys x → ∃ phys' x',
      (copyAltStep cpu c user copyPage mapping (wrap32 (dst + k)) (wrap32 (src + k)) (len - k)
        phys).run x = .ok (((chunk (u + k) (len - k) : ℕ), phys'), x') ∧
      I (k + chunk (u + k) (len - k)) phys' x')
    (hk : k ≤ len) (hn : len - k ≤ n) (hI : I k phys x) :
    ∃ phys' x', (copyAlt cpu c user copyPage mapping n (wrap32 (dst + k)) (wrap32 (src + k))
        (len - k) phys).run x = .ok ((), x') ∧ I len phys' x' := by
  induction n generalizing k phys x with
  | zero =>
      obtain rfl : k = len := by omega
      exact ⟨phys, x, rfl, hI⟩
  | succ n ih =>
      by_cases hrem : len - k = 0
      · obtain rfl : k = len := by omega
        refine ⟨phys, x, ?_, hI⟩
        rw [copyAlt, if_pos hrem, Prog.run_pure]
      · rcases hstep k phys x (by omega) hI with ⟨phys₁, x₁, hrun, hI₁⟩
        have hchunk := chunk_le (u + k) (len - k)
        have hmore := chunk_pos (by omega : 0 < len - k) (u + k)
        rcases ih (by omega) (by omega) hI₁ with ⟨phys', x', hloop, hI'⟩
        refine ⟨phys', x', ?_, hI'⟩
        rw [copyAlt_succ cpu copyPage hrem, Prog.run_bind_ok hrun, ofLong_of_lt (by omega),
          wrap32_add, wrap32_add, sub32_of_le hchunk (by omega), Nat.add_assoc, Nat.add_assoc,
          Nat.sub_sub]
        exact hloop

/-- One iteration on the i686, from its parts. -/
lemma copyAltStep_run {copyPage : ℕ → ℕ → ℕ → ℕ → MachineProg ρ ℤ} {e₁ e₂ e₃ : Machine ρ}
    {r : Except VirtmemError ℕ} {x : Except VirtmemError Unit} {amtCopied : ℤ}
    (hget : (i686UserGetPage K L c (user dst src)).run e = .ok (r, e₁))
    (hphys : storeOk r phys = some p)
    (hmap : (i686KernelMapVirtToPhys K p (window j)).run e₁ = .ok (x, e₂))
    (hcopy : (copyPage dst src (window j) rem).run e₂ = .ok (amtCopied, e₃)) :
    (copyAltStep (i686Cpu K L) c user copyPage (some (window j)) dst src rem phys).run e
      = .ok ((amtCopied, some p), e₃) := by
  have hget' : ((i686Cpu K L).virtmemUserGetPage c (user dst src)).run e = .ok (r, e₁) := hget
  have hmap' : ((i686Cpu K L).virtmemKernelMapVirtToPhys p (window j)).run e₁ = .ok (x, e₂) := hmap
  rw [copyAltStep, Prog.run_bind_ok (callVirtmem_run hget')]
  simp only [hphys, readStored, pure_bind]
  rw [Prog.run_bind_ok (callVirtmem_run hmap'), Prog.run_bind_ok (callVirtmem_run hcopy),
    Prog.run_pure]

end Loop

end Exact

/-! ## The ranges -/

/-- **A user range that can be copied.** -/
structure UserRange (K : KernelImage) (L : Localmem ρ) (s : Machine ρ) (c u len : ℕ) : Prop where
  notTable : ¬K.HoldsTable (c / 4096 % 2 ^ 20)
  lt : u < 2 ^ 32
  fits : u + len ≤ 2 ^ 32
  short : len < 2 ^ 31
  mapped : ∀ i < len, Mapped s.mem (c / 4096 % 2 ^ 20) (u + i)
  looksUp : ∀ i < len, LooksUp K L s c (u + i)
  plain : ∀ i < len, ¬K.HoldsTable (s.userPlace c u i).1

/-- **A kernel buffer** apart from the range. -/
structure KernelBuffer (K : KernelImage) (s : Machine ρ) (c u len buf : ℕ) : Prop where
  high : highstart ≤ buf
  lt : buf < 2 ^ 32
  fits : buf + len ≤ 2 ^ 32
  mapped : ∀ i < len, Mapped s.mem (s.cr3 / 4096) (buf + i)
  plain : ∀ i < len, ¬K.HoldsTable (s.kernelPlace buf i).1
  apart : ∀ i < len, ∀ j < len, (s.kernelPlace buf i).1 ≠ (s.userPlace c u j).1

/-- A frame that holds data, and none of the tables that the copy goes through. -/
structure DataFrame (K : KernelImage) (s : Machine ρ) (c u len f : ℕ) : Prop where
  plain : PlainFrame K s.cr3 f
  notDirectory : f ≠ c / 4096 % 2 ^ 20
  notPageTable : ∀ i < len,
    f ≠ Entry.physAddr.get (s.mem (c / 4096 % 2 ^ 20) ((u + i) / 2 ^ 22))

section Ranges

variable {s e : Machine ρ} {W : Finset ℕ} {c u dst src buf len k n m rem j : ℕ}
  {locs : ℕ → ℕ × ℕ} {val : ℕ → ℕ}

/-- The machine with the first `k` bytes copied. -/
def Machine.copied (s : Machine ρ) (locs : ℕ → ℕ × ℕ) (val : ℕ → ℕ) (k : ℕ) : Machine ρ :=
  { s with mem := storeBytes s.mem locs val k }

lemma DataFrame.running (hrun : Running K s)
    (hdata : ∀ i < k, DataFrame K s c u len (locs i).1) : Running K (s.copied locs val k) :=
  hrun.congr fun _ => storeBytes_of_frame_ne fun i hi => (hdata i hi).plain.notRunning

/-- The range is mapped as before while it is copied. -/
lemma UserRange.translate (h : UserRange K L s c u len)
    (hdata : ∀ i < k, DataFrame K s c u len (locs i).1)
    (hopens : Opens K W (s.copied locs val k) e) {i : ℕ} (hi : i < len) :
    Mapped e.mem (c / 4096 % 2 ^ 20) (u + i) ∧
      placeAt e.mem (c / 4096 % 2 ^ 20) (u + i) = placeAt s.mem (c / 4096 % 2 ^ 20) (u + i) := by
  have hfits := h.fits
  rcases (h.mapped i hi).translate with ⟨x, hx, -⟩
  have hx' := translate_stored hopens.mem (by omega)
    (fun n hn => ⟨(hdata n hn).notDirectory, (hdata n hn).notPageTable i hi⟩) hx
  refine ⟨Option.isSome_iff_exists.mpr ⟨x, hx'⟩, ?_⟩
  rw [placeAt_of_translate hx, placeAt_of_translate hx']

/-- The range is looked up as before while it is copied, the first page before anything else is. -/
lemma UserRange.lookup (h : UserRange K L s c u len) (hrun : Running K s)
    (hdata : ∀ i < k, DataFrame K s c u len (locs i).1)
    (hopens : Opens K W (s.copied locs val k) e) (hk : k < len) (hstart : k = 0 ∨ 4096 ≤ u + k)
    (hfree : 2 ≤ freeWindows K e.mem) :
    ∃ e', (i686UserGetPage K L c (u + k)).run e
        = .ok (.ok ((placeAt s.mem (c / 4096 % 2 ^ 20) (u + k)).1 * 4096), e') ∧
      ∃ W', Opens K W' e e' ∧ W'.card = 2 := by
  have hfits := h.fits
  have hrun' : Running K (s.copied locs val k) := DataFrame.running hrun hdata
  rcases h.translate hdata hopens hk with ⟨hmapped, hplace⟩
  rcases i686UserGetPage_run (L := L) (hopens.running hrun') h.notTable (by omega) hmapped hfree
    with ⟨r, e', hget, hW', hr⟩
  refine ⟨e', ?_, hW'⟩
  rcases hstart with rfl | h4096
  · -- nothing has been stored yet
    rcases h.looksUp 0 hk W e hopens hfree with ⟨e'', hlook⟩
    rw [hget] at hlook
    obtain ⟨rfl, -⟩ := Prod.mk.inj (Except.ok.inj hlook)
    exact hget
  · rw [hget, hr h4096, hplace]

lemma Opens.trans {W' : Finset ℕ} {t e' : Machine ρ} (h : Opens K W t e) (h' : Opens K W' e e') :
    Opens K (W ∪ W') t e' :=
  ⟨h.mem.trans h'.mem, h'.cr3.trans h.cr3, h'.localmem.trans h.localmem, h'.as.trans h.as⟩

lemma freeWindows_copied (hlocs : ∀ i < k, ¬K.HoldsTable (locs i).1) :
    freeWindows K (s.copied locs val k).mem = freeWindows K s.mem := by
  refine freeWindows_congr fun f w hf => storeBytes_of_frame_ne ?_
  rintro i hi rfl
  exact hlocs i hi hf

/-- What copying one chunk does: `copyPage` with the mapping in window `j`. -/
def CopiesChunk (K : KernelImage) (s : Machine ρ) (c u dst src len : ℕ) (locs : ℕ → ℕ × ℕ)
    (val : ℕ → ℕ) (copyPage : ℕ → ℕ → ℕ → ℕ → MachineProg ρ ℤ) : Prop :=
  ∀ k rem j W e, k + rem = len → 0 < rem → Opens K W (s.copied locs val k) e →
    Shows K e.mem j (placeAt s.mem (c / 4096 % 2 ^ 20) (u + k)).1 →
    (copyPage (wrap32 (dst + k)) (wrap32 (src + k)) (window j) rem).run e
      = .ok ((chunk (u + k) rem : ℕ), { e with
          mem := storeBytes e.mem (fun i => locs (k + i)) (fun i => val (k + i))
            (chunk (u + k) rem) })

/-- Storing the next chunk. -/
lemma Opens.copiedChunk (h : Opens K W (s.copied locs val k) e) (m : ℕ)
    (hlocs : ∀ i < k + m, ¬K.HoldsTable (locs i).1) :
    Opens K W (s.copied locs val (k + m)) { e with
      mem := Akaris.storeBytes e.mem (fun i => locs (k + i)) (fun i => val (k + i)) m } := by
  have hcopied : { s.copied locs val k with
      mem := Akaris.storeBytes (s.copied locs val k).mem (fun i => locs (k + i))
        (fun i => val (k + i)) m } = s.copied locs val (k + m) := by
    rw [Machine.copied, Machine.copied, storeBytes_add]
  rw [← hcopied]
  exact h.storeBytes fun i hi => hlocs (k + i) (by omega)

/-- **The invariant of the loop**: `k` bytes are copied, the windows `W` are among the open ones,
which are two more for each page that was looked up, and enough are left for the lookups to come. -/
def CopyInv (K : KernelImage) (s : Machine ρ) (u len : ℕ) (locs : ℕ → ℕ × ℕ) (val : ℕ → ℕ)
    (W : Finset ℕ) (k : ℕ) (_ : Option ℕ) (e : Machine ρ) : Prop :=
  ∃ W', W ⊆ W' ∧ W'.card + 2 * pagesIn (u + k) (len - k) = W.card + 2 * pagesIn u len ∧
    Opens K W' (s.copied locs val k) e ∧ (k = len ∨ k = 0 ∨ 4096 ≤ u + k) ∧
    2 * pagesIn (u + k) (len - k) ≤ freeWindows K e.mem

/-- **One iteration** copies one chunk. -/
lemma copyAltStep_copies {user : ℕ → ℕ → ℕ} {copyPage : ℕ → ℕ → ℕ → ℕ → MachineProg ρ ℤ}
    {phys : Option ℕ} (h : UserRange K L s c u len) (hrun : Running K s)
    (hdata : ∀ i < len, DataFrame K s c u len (locs i).1)
    (huser : ∀ k < len, user (wrap32 (dst + k)) (wrap32 (src + k)) = u + k)
    (hpage : CopiesChunk K s c u dst src len locs val copyPage) (hj : j ∈ W) (hk : k < len)
    (hinv : CopyInv K s u len locs val W k phys e) :
    ∃ phys' e', (copyAltStep (i686Cpu K L) c user copyPage (some (window j)) (wrap32 (dst + k))
        (wrap32 (src + k)) (len - k) phys).run e
        = .ok (((chunk (u + k) (len - k) : ℕ), phys'), e') ∧
      CopyInv K s u len locs val W (k + chunk (u + k) (len - k)) phys' e' := by
  have hplain : ∀ i < len, ¬K.HoldsTable (locs i).1 := fun i hi => (hdata i hi).plain.notTable
  have hdata' : ∀ i < k, DataFrame K s c u len (locs i).1 := fun i hi => hdata i (by omega)
  have hpages := pagesIn_chunk (by omega : 0 < len - k) (u + k)
  have hchunk := chunk_le (u + k) (len - k)
  rcases hinv with ⟨W', hsub, hcount, hopens, hstart, hfree⟩
  -- the page is looked up, and shown in the mapping
  rcases h.lookup hrun hdata' hopens hk (by omega) (by omega) with ⟨e₁, hget, W₁, hopens₁, hcard⟩
  have hall₁ := hopens.trans hopens₁
  have hj₁ : j ∈ W' ∪ W₁ := Finset.mem_union_left W₁ (hsub hj)
  rcases Prog.wp_returns (i686KernelMapVirtToPhys_wp hall₁ hj₁
    ((placeAt s.mem (c / 4096 % 2 ^ 20) (u + k)).1 * 4096)) with
    ⟨_, e₂, hmap, rfl, hall₂, hshows, -⟩
  have hframe := (h.mapped k hk).frame_lt
  rw [physAddr_frame hframe] at hshows
  have hcopy := hpage k (len - k) j _ e₂ (by omega) (by omega) hall₂ hshows
  have hall₃ := hall₂.copiedChunk (chunk (u + k) (len - k)) fun i hi => hplain i (by omega)
  have hget' : (i686UserGetPage K L c (user (wrap32 (dst + k)) (wrap32 (src + k)))).run e
      = .ok (.ok ((placeAt s.mem (c / 4096 % 2 ^ 20) (u + k)).1 * 4096), e₁) := by
    rw [huser k hk]
    exact hget
  -- what is left of the windows
  have hfree₀ := hopens.mem.freeWindows
  have hfree₁ := hopens₁.mem.freeWindows
  have hbefore := hall₁.mem.freeWindows
  have hafter := hall₃.mem.freeWindows
  have hsame : freeWindows K (s.copied locs val k).mem = freeWindows K s.mem :=
    freeWindows_copied fun i hi => hplain i (by omega)
  have hsame' : freeWindows K (s.copied locs val (k + chunk (u + k) (len - k))).mem
      = freeWindows K s.mem := freeWindows_copied fun i hi => hplain i (by omega)
  refine ⟨_, _, copyAltStep_run hget' (storeOk_ok _ _) hmap hcopy, W' ∪ W₁,
    hsub.trans Finset.subset_union_left, ?_, hall₃, ?_, ?_⟩
  · rw [← Nat.add_assoc, ← Nat.sub_sub]
    omega
  · unfold chunk
    omega
  · rw [← Nat.add_assoc, ← Nat.sub_sub]
    omega

/-- **The loop** copies the range, chunk by chunk. -/
lemma copyAlt_run {user : ℕ → ℕ → ℕ} {copyPage : ℕ → ℕ → ℕ → ℕ → MachineProg ρ ℤ}
    (h : UserRange K L s c u len) (hrun : Running K s)
    (hdata : ∀ i < len, DataFrame K s c u len (locs i).1)
    (huser : ∀ k < len, user (wrap32 (dst + k)) (wrap32 (src + k)) = u + k)
    (hpage : CopiesChunk K s c u dst src len locs val copyPage) (hopens : Opens K W s e)
    (hj : j ∈ W) (hfree : 2 * pagesIn u len ≤ freeWindows K e.mem) :
    ∃ e' W', (copyAlt (i686Cpu K L) c user copyPage (some (window j)) len (wrap32 (dst + 0))
        (wrap32 (src + 0)) (len - 0) none).run e = .ok ((), e') ∧
      Opens K W' (s.copied locs val len) e' ∧ W'.card = W.card + 2 * pagesIn u len := by
  have hshort := h.short
  have hinit : CopyInv K s u len locs val W 0 none e :=
    ⟨W, Finset.Subset.refl W, rfl, hopens, Or.inr (Or.inl rfl), hfree⟩
  rcases copyAlt_rule (I := CopyInv K s u len locs val W) (by omega)
    (fun k phys x hk hinv => copyAltStep_copies h hrun hdata huser hpage hj hk hinv)
    (Nat.zero_le len) le_rfl hinit with ⟨_, e', hloop, W', -, hcount, hopens', -⟩
  have hdone : pagesIn (u + len) (len - len) = 0 := by
    rw [Nat.sub_self, pagesIn, if_pos rfl]
  exact ⟨e', W', hloop, hopens', by omega⟩

/-! ## The two directions -/

lemma Shows.stored {base mem : PhysMem} {i f : ℕ} (h : Shows K base i f)
    (hlocs : ∀ i < k, ¬K.HoldsTable (locs i).1)
    (hopened : Opened K W (storeBytes base locs val k) mem) : Shows K mem i f := by
  refine Shows.opened (h.congr (storeBytes_of_frame_ne ?_)) hopened
  rintro n hn heq
  exact hlocs n hn (heq ▸ holdsTable_of_lt h.lt)

/-- The kernel buffer is where it was while the range is copied. -/
lemma KernelBuffer.reaches (h : KernelBuffer K s c u len buf) (hrun : Running K s)
    (hlocs : ∀ i < k, ¬K.HoldsTable (locs i).1) (hopens : Opens K W (s.copied locs val k) e)
    {i : ℕ} (hi : i < len) : Reaches K e.mem (buf + i) (s.kernelPlace buf i) := by
  have hhigh := h.high
  have hfits := h.fits
  rcases (h.mapped i hi).translate with ⟨x, hx, -⟩
  have hplace : s.kernelPlace buf i = (x.frame, (buf + i) % 4096) := placeAt_of_translate hx
  rw [hplace]
  rcases reaches_of_translate hrun.linked (by omega) (by omega) hx with ⟨w, hshows, hrest⟩
  exact ⟨w, hshows.stored hlocs hopens.mem, hrest⟩

/-- A byte that is not copied to is as it was. -/
lemma byte_kept {f o : ℕ} (hopens : Opens K W (s.copied locs val k) e) (hf : ¬K.HoldsTable f)
    (hout : ∀ i < k, locs i ≠ (f, o)) : e.mem.byte f o = s.mem.byte f o := by
  have hword : e.mem.byte f o = (s.copied locs val k).mem.byte f o := by
    rw [PhysMem.byte, PhysMem.byte, hopens.outside hf]
  rw [hword]
  exact byte_storeBytes_of_notMem hout

/-- The bytes of a chunk lie in one frame. -/
lemma userPlace_add {i : ℕ} (hi : i < chunk (u + k) rem) :
    s.userPlace c u (k + i) = ((s.userPlace c u k).1, (u + k) % 4096 + i) := by
  show placeAt _ _ (u + (k + i)) = _
  rw [← Nat.add_assoc, placeAt_add (chunk_offset hi)]

/-- **Chunks from the user.** -/
lemma copyPartialPageFromUser_copies (h : UserRange K L s c u len) (hrun : Running K s)
    (hbuf : KernelBuffer K s c u len dst)
    (hdata : ∀ i < len, DataFrame K s c u len (s.kernelPlace dst i).1) :
    CopiesChunk K s c u dst u len (s.kernelPlace dst) (fun i => s.byteAt (s.userPlace c u i))
      (copyPartialPageFromUser (i686Cpu K L)) := by
  intro k rem j W e hlen hpos hopens hshows
  have hfits := h.fits
  have hfits' := hbuf.fits
  have hshort := h.short
  have hchunk := chunk_le (u + k) rem
  have hplain : ∀ i < k, ¬K.HoldsTable (s.kernelPlace dst i).1 :=
    fun i hi => hbuf.plain i (by omega)
  have hrun' : Running K e :=
    hopens.running (DataFrame.running hrun fun i hi => hdata i (by omega))
  have hto : ∀ i < chunk (u + k) rem, Reaches K e.mem (dst + k + i) (s.kernelPlace dst (k + i)) ∧
      PlainFrame K e.cr3 (s.kernelPlace dst (k + i)).1 := by
    intro i hi
    rw [Nat.add_assoc, hopens.cr3]
    exact ⟨hbuf.reaches hrun hplain hopens (by omega), (hdata (k + i) (by omega)).plain⟩
  rw [wrap32_of_lt (by omega : dst + k < 2 ^ 32), wrap32_of_lt (by omega : u + k < 2 ^ 32),
    copyPartialPageFromUser_run hrun' (by omega) hshows hto
      fun i hi => hbuf.apart (k + i) (by omega) k (by omega)]
  have hval : ∀ i < chunk (u + k) rem, e.mem.byte (s.userPlace c u k).1 ((u + k) % 4096 + i)
      = s.byteAt (s.userPlace c u (k + i)) := by
    intro i hi
    rw [userPlace_add hi, Machine.byteAt]
    refine byte_kept hopens (h.plain k (by omega)) fun n hn heq => ?_
    have hframe : (s.kernelPlace dst n).1 = (s.userPlace c u k).1 := by rw [heq]
    exact hbuf.apart n (by omega) k (by omega) hframe
  rw [storeBytes_eq (fun _ _ => rfl) hval]

/-- **Chunks to the user.** -/
lemma copyPartialPageToUser_copies (h : UserRange K L s c u len) (hrun : Running K s)
    (hbuf : KernelBuffer K s c u len src)
    (hdata : ∀ i < len, DataFrame K s c u len (s.userPlace c u i).1) :
    CopiesChunk K s c u u src len (s.userPlace c u) (fun i => s.byteAt (s.kernelPlace src i))
      (copyPartialPageToUser (i686Cpu K L)) := by
  intro k rem j W e hlen hpos hopens hshows
  have hfits := h.fits
  have hfits' := hbuf.fits
  have hshort := h.short
  have hchunk := chunk_le (u + k) rem
  have hplain : ∀ i < k, ¬K.HoldsTable (s.userPlace c u i).1 := fun i hi => h.plain i (by omega)
  have hrun' : Running K e :=
    hopens.running (DataFrame.running hrun fun i hi => hdata i (by omega))
  have hf : PlainFrame K e.cr3 (s.userPlace c u k).1 := by
    rw [hopens.cr3]
    exact (hdata k (by omega)).plain
  have hfrom : ∀ i < chunk (u + k) rem, Reaches K e.mem (src + k + i) (s.kernelPlace src (k + i)) ∧
      (s.kernelPlace src (k + i)).1 ≠ (s.userPlace c u k).1 := by
    intro i hi
    rw [Nat.add_assoc]
    exact ⟨hbuf.reaches hrun hplain hopens (by omega), hbuf.apart (k + i) (by omega) k (by omega)⟩
  rw [wrap32_of_lt (by omega : src + k < 2 ^ 32), wrap32_of_lt (by omega : u + k < 2 ^ 32),
    copyPartialPageToUser_run hrun' (by omega) hshows hf hfrom]
  have hval : ∀ i < chunk (u + k) rem, e.mem.byte (s.kernelPlace src (k + i)).1
      (s.kernelPlace src (k + i)).2 = s.byteAt (s.kernelPlace src (k + i)) := by
    intro i hi
    refine byte_kept hopens (hbuf.plain (k + i) (by omega)) fun n hn heq => ?_
    exact hbuf.apart (k + i) (by omega) n (by omega) (congrArg Prod.fst heq.symm)
  rw [storeBytes_eq (fun i hi => (userPlace_add hi).symm) hval]

/-! ## Whole copies -/

/-- What the two directions have in common: the mapping is taken, and the loop copies the range. -/
lemma copyWhole_run {user : ℕ → ℕ → ℕ} {copyPage : ℕ → ℕ → ℕ → ℕ → MachineProg ρ ℤ}
    (h : UserRange K L s c u len) (hrun : Running K s)
    (hdata : ∀ i < len, DataFrame K s c u len (locs i).1) (hdst : dst < 2 ^ 32)
    (hsrc : src < 2 ^ 32) (huser : ∀ k < len, user (wrap32 (dst + k)) (wrap32 (src + k)) = u + k)
    (hpage : CopiesChunk K s c u dst src len locs val copyPage)
    (hwindows : 1 + 2 * pagesIn u len ≤ freeWindows K s.mem) :
    ∃ e W, (do
      let r ← callVirtmem ((i686Cpu K L).virtmemKernelAlloc 1)
      let mapping := storeOk r none
      copyAlt (i686Cpu K L) c user copyPage mapping len dst src len none
      let m ← readStored mapping
      let _ ← callVirtmem ((i686Cpu K L).virtmemKernelFree m)
      return (.ok () : Except VirtmemError Unit)).run s = .ok (.ok (), e) ∧
      Opens K W (s.copied locs val len) e ∧ W.card = 1 + 2 * pagesIn u len := by
  rcases Prog.wp_returns (i686KernelAlloc_wp (K := K) (Opens.refl s)) with
    ⟨r, e₁, halloc, ⟨j, rfl, -, hopens, -, -⟩ | ⟨-, hfull, -⟩⟩
  · have hfree := hopens.mem.freeWindows
    rw [Finset.card_insert_of_notMem (Finset.notMem_empty j), Finset.card_empty] at hfree
    rcases copyAlt_run h hrun hdata huser hpage hopens (Finset.mem_insert_self j ∅) (by omega) with
      ⟨e, W, hloop, hopens', hcount⟩
    rw [Nat.add_zero, Nat.add_zero, wrap32_of_lt hdst, wrap32_of_lt hsrc, Nat.sub_zero] at hloop
    rw [Finset.card_insert_of_notMem (Finset.notMem_empty j), Finset.card_empty] at hcount
    refine ⟨e, W, ?_, hopens', by omega⟩
    have halloc' : ((i686Cpu K L).virtmemKernelAlloc 1).run s = .ok (_, e₁) := halloc
    have hend : ((i686Cpu K L).virtmemKernelFree (window j)).run e = .ok (.ok (), e) := rfl
    rw [Prog.run_bind_ok (callVirtmem_run halloc')]
    simp only [storeOk, readStored, pure_bind]
    rw [Prog.run_bind_ok hloop, Prog.run_bind_ok (callVirtmem_run hend), Prog.run_pure]
  · rw [Finset.card_empty] at hfull
    omega

/-- **A copy from the user** ends with the bytes of the range in the buffer. -/
lemma copyUserToKernel_run (h : UserRange K L s c u len) (hrun : Running K s)
    (hbuf : KernelBuffer K s c u len dst)
    (hdata : ∀ i < len, DataFrame K s c u len (s.kernelPlace dst i).1)
    (hwindows : 1 + 2 * pagesIn u len ≤ freeWindows K s.mem) :
    ∃ e W, (commonVirtmemCopyUserToKernel (i686Cpu K L) dst c u len).run s = .ok (.ok (), e) ∧
      Opens K W (s.copied (s.kernelPlace dst) (fun i => s.byteAt (s.userPlace c u i)) len) e ∧
      W.card = 1 + 2 * pagesIn u len := by
  have hfits := h.fits
  exact copyWhole_run h hrun hdata hbuf.lt h.lt (fun k hk => wrap32_of_lt (by omega))
    (copyPartialPageFromUser_copies h hrun hbuf hdata) hwindows

/-- **A copy to the user** ends with the bytes of the buffer in the range. -/
lemma copyKernelToUser_run (h : UserRange K L s c u len) (hrun : Running K s)
    (hbuf : KernelBuffer K s c u len src)
    (hdata : ∀ i < len, DataFrame K s c u len (s.userPlace c u i).1)
    (hwindows : 1 + 2 * pagesIn u len ≤ freeWindows K s.mem) :
    ∃ e W, (commonVirtmemCopyKernelToUser (i686Cpu K L) c u src len).run s = .ok (.ok (), e) ∧
      Opens K W (s.copied (s.userPlace c u) (fun i => s.byteAt (s.kernelPlace src i)) len) e ∧
      W.card = 1 + 2 * pagesIn u len := by
  have hfits := h.fits
  exact copyWhole_run h hrun hdata h.lt hbuf.lt (fun k hk => wrap32_of_lt (by omega))
    (copyPartialPageToUser_copies h hrun hbuf hdata) hwindows

/-! ## Exactness -/

/-- Places that can be written to: data, and a frame of its own for every page. -/
structure Writable (K : KernelImage) (s : Machine ρ) (c u len a : ℕ) (locs : ℕ → ℕ × ℕ) :
    Prop where
  data : ∀ i < len, DataFrame K s c u len (locs i).1
  pages : ∀ i < len, ∀ j < len, (a + i) / 4096 ≠ (a + j) / 4096 → (locs i).1 ≠ (locs j).1

/-- **An exact copy** of the bytes `val` to the places `locs`: no other byte changed, but for the
kernel page table entries of `n` kernel pages, which were not present and are now. -/
structure CopiedExactly (K : KernelImage) (s e : Machine ρ) (locs : ℕ → ℕ × ℕ) (val : ℕ → ℕ)
    (len n : ℕ) : Prop where
  bytes : ∀ i < len, e.byteAt (locs i) = val i
  others : ∀ f o, ¬K.HoldsTable f → (∀ i < len, locs i ≠ (f, o)) → e.mem.byte f o = s.mem.byte f o
  tables : ∃ W : Finset ℕ, W.card = n ∧
    (∀ i ∈ W, i < 2 ^ 18 ∧ Entry.present.get (kernelFlatpt K s.mem i) = 0 ∧
      Entry.present.get (kernelFlatpt K e.mem i) = 1) ∧
    ∀ i < 2 ^ 18, i ∉ W → kernelFlatpt K e.mem i = kernelFlatpt K s.mem i

/-- Different bytes are in different places. -/
lemma Writable.inj {a : ℕ} (h : Writable K s c u len a locs)
    (hlocs : ∀ i, (locs i).2 = (a + i) % 4096) :
    ∀ i < len, ∀ j < len, locs i = locs j → i = j := by
  intro i hi j hj heq
  have hoff : (a + i) % 4096 = (a + j) % 4096 := by rw [← hlocs, ← hlocs, heq]
  by_contra hne
  refine h.pages i hi j hj ?_ (congrArg Prod.fst heq)
  omega

/-- Copying data does not change kernel page tables. -/
lemma kernelFlatpt_copied {i : ℕ} (hlocs : ∀ i < k, ¬K.HoldsTable (locs i).1) (hi : i < 2 ^ 18) :
    kernelFlatpt K (s.copied locs val k).mem i = kernelFlatpt K s.mem i := by
  refine storeBytes_of_frame_ne ?_
  rintro n hn heq
  exact hlocs n hn (heq ▸ holdsTable_of_lt hi)

lemma copied_exactly {a : ℕ} (h : Writable K s c u len a locs)
    (hlocs : ∀ i, (locs i).2 = (a + i) % 4096) (hval : ∀ i, val i < 256)
    (hopens : Opens K W (s.copied locs val len) e) : CopiedExactly K s e locs val len W.card := by
  have hplain : ∀ i < len, ¬K.HoldsTable (locs i).1 := fun i hi => (h.data i hi).plain.notTable
  refine ⟨fun i hi => ?_, fun f o hf hout => byte_kept hopens hf hout, W, rfl, fun i hi => ?_,
    fun i hi hW => ?_⟩
  · have hword : e.byteAt (locs i) = (s.copied locs val len).byteAt (locs i) := by
      rw [Machine.byteAt, Machine.byteAt, PhysMem.byte, PhysMem.byte, hopens.outside (hplain i hi)]
    rw [hword]
    exact byte_storeBytes locs (h.inj hlocs) hi (hval i)
  · have hfresh := hopens.mem.fresh i hi
    rw [kernelFlatpt_copied hplain hfresh.1] at hfresh
    exact ⟨hfresh.1, hfresh.2, hopens.mem.opened i hi⟩
  · rw [hopens.mem.other i hi hW, kernelFlatpt_copied hplain hi]

/-- The kernel buffer is still one after a copy to the user. -/
lemma KernelBuffer.stored (h : KernelBuffer K s c u len buf) (hrange : UserRange K L s c u len)
    (hrun : Running K s) (hdata : ∀ i < len, DataFrame K s c u len (locs i).1)
    (hopens : Opens K W (s.copied locs val len) e) :
    KernelBuffer K e c u len buf ∧ ∀ i < len, e.kernelPlace buf i = s.kernelPlace buf i := by
  have hcr3 : e.cr3 = s.cr3 := hopens.cr3
  have hhigh := h.high
  have hfits := h.fits
  have htranslate : ∀ i < len, Mapped e.mem (e.cr3 / 4096) (buf + i) ∧
      e.kernelPlace buf i = s.kernelPlace buf i := by
    intro i hi
    rcases (h.mapped i hi).translate with ⟨x, hx, -⟩
    -- the tables of the kernel half are kernel page tables
    have hpde : (buf + i) / 2 ^ 22 = 768 + ((buf + i) / 2 ^ 22 - 768) := by
      unfold highstart at hhigh
      omega
    have htable : K.HoldsTable (Entry.physAddr.get (s.mem (s.cr3 / 4096) ((buf + i) / 2 ^ 22))) := by
      have hk : (buf + i) / 2 ^ 22 - 768 < 256 := by omega
      rw [hpde, hrun.linked _ hk, physAddr_kernelPde hk]
      exact ⟨Nat.le_add_right _ _, by omega⟩
    have hx' := translate_stored hopens.mem (by omega) (fun n hn => ⟨(hdata n hn).plain.notRunning,
      fun heq => (hdata n hn).plain.notTable (heq ▸ htable)⟩) hx
    rw [Machine.kernelPlace, Machine.kernelPlace, hcr3]
    refine ⟨Option.isSome_iff_exists.mpr ⟨x, hx'⟩, ?_⟩
    rw [placeAt_of_translate hx, placeAt_of_translate hx']
  refine ⟨⟨h.high, h.lt, h.fits, fun i hi => (htranslate i hi).1, fun i hi => ?_,
    fun i hi j hj => ?_⟩, fun i hi => (htranslate i hi).2⟩
  · rw [(htranslate i hi).2]
    exact h.plain i hi
  · have hu := (hrange.translate hdata hopens hj).2
    rw [(htranslate i hi).2, Machine.userPlace, hu]
    exact h.apart i hi j hj

/-- The range can be copied back when its first page is still looked up. -/
lemma UserRange.stored (h : UserRange K L s c u len)
    (hdata : ∀ i < len, DataFrame K s c u len (locs i).1)
    (hopens : Opens K W (s.copied locs val len) e) (hlook : ∀ i < len, LooksUp K L e c (u + i)) :
    UserRange K L e c u len := by
  refine ⟨h.notTable, h.lt, h.fits, h.short, fun i hi => (h.translate hdata hopens hi).1, hlook,
    fun i hi => ?_⟩
  rw [Machine.userPlace, (h.translate hdata hopens hi).2]
  exact h.plain i hi

/-- Data stays data. -/
lemma DataFrame.stored {f : ℕ} (h : DataFrame K s c u len f) (hd : ¬K.HoldsTable (c / 4096 % 2 ^ 20))
    (hdata : ∀ i < len, DataFrame K s c u len (locs i).1)
    (hopens : Opens K W (s.copied locs val len) e) : DataFrame K e c u len f := by
  have hcr3 : e.cr3 = s.cr3 := hopens.cr3
  refine ⟨by rw [hcr3]; exact h.plain, h.notDirectory, fun i hi => ?_⟩
  have hword : ∀ w, e.mem (c / 4096 % 2 ^ 20) w = s.mem (c / 4096 % 2 ^ 20) w := fun w => by
    rw [hopens.outside hd]
    exact storeBytes_of_frame_ne fun n hn => (hdata n hn).notDirectory
  rw [hword]
  exact h.notPageTable i hi

/-- **Copies are exact.**  With the pages of the range mapped, and the kernel pages for the mapping
and the lookups there, both copies return and copy exactly the bytes of the range.  Beyond that they
change the kernel page table entries of the kernel pages they take, one for the mapping and two for
each page of the range.  What was copied to the user comes back. -/
theorem copies_are_exact (hrun : Running K s) (h : UserRange K L s c u len)
    (hwindows : 1 + 2 * pagesIn u len ≤ freeWindows K s.mem) :
    (∀ dst, KernelBuffer K s c u len dst → Writable K s c u len dst (s.kernelPlace dst) →
      ∃ e, (commonVirtmemCopyUserToKernel (i686Cpu K L) dst c u len).run s = .ok (.ok (), e) ∧
        CopiedExactly K s e (s.kernelPlace dst) (fun i => s.byteAt (s.userPlace c u i)) len
          (1 + 2 * pagesIn u len)) ∧
    (∀ src, KernelBuffer K s c u len src → Writable K s c u len u (s.userPlace c u) →
      ∃ e, (commonVirtmemCopyKernelToUser (i686Cpu K L) c u src len).run s = .ok (.ok (), e) ∧
        CopiedExactly K s e (s.userPlace c u) (fun i => s.byteAt (s.kernelPlace src i)) len
          (1 + 2 * pagesIn u len) ∧
        ∀ dst, KernelBuffer K s c u len dst → Writable K s c u len dst (s.kernelPlace dst) →
          (∀ i < len, LooksUp K L e c (u + i)) → 1 + 2 * pagesIn u len ≤ freeWindows K e.mem →
          ∃ e', (commonVirtmemCopyUserToKernel (i686Cpu K L) dst c u len).run e = .ok (.ok (), e') ∧
            ∀ i < len, e'.byteAt (s.kernelPlace dst i) = s.byteAt (s.kernelPlace src i)) := by
  have hbyte : ∀ (s : Machine ρ) p, s.byteAt p < 256 := fun s p => byte_lt _ _ _
  refine ⟨fun dst hbuf hdst => ?_, fun src hbuf hu => ?_⟩
  · rcases copyUserToKernel_run h hrun hbuf hdst.data hwindows with ⟨e, W, hcopy, hopens, hcard⟩
    rw [← hcard]
    exact ⟨e, hcopy, copied_exactly hdst (fun _ => rfl) (fun i => hbyte s _) hopens⟩
  · rcases copyKernelToUser_run h hrun hbuf hu.data hwindows with ⟨e, W, hcopy, hopens, hcard⟩
    have hexact := copied_exactly hu (fun _ => rfl) (fun i => hbyte s _) hopens
    rw [hcard] at hexact
    refine ⟨e, hcopy, hexact, fun dst hbuf' hdst hlook hwindows' => ?_⟩
    rcases hbuf'.stored h hrun hu.data hopens with ⟨hbufe, hplace⟩
    have hrange := h.stored hu.data hopens hlook
    have hrune : Running K e := hopens.running (DataFrame.running hrun hu.data)
    have hdste : ∀ i < len, DataFrame K e c u len (e.kernelPlace dst i).1 := by
      intro i hi
      rw [hplace i hi]
      exact (hdst.data i hi).stored h.notTable hu.data hopens
    have hdste' : Writable K e c u len dst (e.kernelPlace dst) := by
      refine ⟨hdste, fun i hi j hj => ?_⟩
      rw [hplace i hi, hplace j hj]
      exact hdst.pages i hi j hj
    rcases copyUserToKernel_run hrange hrune hbufe hdste hwindows' with
      ⟨e', W', hcopy', hopens', -⟩
    have hexact' := copied_exactly hdste' (fun _ => rfl) (fun i => hbyte e _) hopens'
    refine ⟨e', hcopy', fun i hi => ?_⟩
    have hback := hexact'.bytes i hi
    rw [hplace i hi] at hback
    rw [hback, Machine.userPlace, (h.translate hu.data hopens hi).2]
    exact hexact.bytes i hi

end Ranges

/-! ## A machine with two user pages -/

/-- The small machine with a context in frame 300, whose pages `0x2000` and `0x3000` are in the
frames 302 and 305, and with the frames 303 and 304 as kernel pages 5 and 6. -/
def copyMachine : Machine Unit where
  mem f w :=
    if f = 2 ∧ w = 5 then windowPte 0 (303 * 4096)
    else if f = 2 ∧ w = 6 then windowPte 0 (304 * 4096)
    else if f = 300 ∧ w = 0 then userPde 301
    else if f = 301 ∧ w = 2 then windowPte 0 (302 * 4096)
    else if f = 301 ∧ w = 3 then windowPte 0 (305 * 4096)
    else smallMachine.mem f w
  cr3 := 4096
  localmem := ()
  as _ := ⟨0, []⟩

lemma copyMachine_running : Running smallImage copyMachine := by
  refine ⟨fun k hk => ?_, ?_⟩
  · have hlink := smallMachine_linksKernel k hk
    exact hlink
  · rintro ⟨hle, -⟩
    exact absurd hle (by decide)

/-- The two kernel pages are the only ones. -/
lemma copyMachine_kernelFlatpt {i : ℕ} (hi : i < 2 ^ 18) (h5 : i ≠ 5) (h6 : i ≠ 6) :
    kernelFlatpt smallImage copyMachine.mem i = 0 := by
  show (if 2 + i / 1024 = 2 ∧ i % 1024 = 5 then _ else if 2 + i / 1024 = 2 ∧ i % 1024 = 6 then _
    else if 2 + i / 1024 = 300 ∧ i % 1024 = 0 then _ else if 2 + i / 1024 = 301 ∧ i % 1024 = 2
    then _ else if 2 + i / 1024 = 301 ∧ i % 1024 = 3 then _ else if 2 + i / 1024 = 1 ∧
    768 ≤ i % 1024 ∧ i % 1024 < 1024 then _ else 0) = (0 : Word)
  rw [if_neg (by omega), if_neg (by omega), if_neg (by omega), if_neg (by omega),
    if_neg (by omega), if_neg (by omega)]

/-- Kernel pages are left. -/
lemma copyMachine_freeWindows : 1000 ≤ freeWindows smallImage copyMachine.mem := by
  have hsub : Finset.Ico 7 (2 ^ 18) ⊆ (Finset.range (2 ^ 18)).filter
      fun i => Entry.present.get (kernelFlatpt smallImage copyMachine.mem i) = 0 := by
    intro i hi
    rw [Finset.mem_Ico] at hi
    rw [Finset.mem_filter, Finset.mem_range,
      copyMachine_kernelFlatpt hi.2 (by omega) (by omega)]
    exact ⟨hi.2, Field.get_zero _⟩
  have hcard := Finset.card_le_card hsub
  rw [Nat.card_Ico] at hcard
  rw [freeWindows]
  omega

/-- Four bytes, two of each user page. -/
lemma copyMachine_userPlace : ∀ i < 4,
    Mapped copyMachine.mem (1228800 / 4096 % 2 ^ 20) (12286 + i) ∧
      copyMachine.userPlace 1228800 12286 i
        = (if i < 2 then 302 else 305, (12286 + i) % 4096) := by
  unfold Mapped
  decide +kernel

/-- Four bytes, one of the first kernel page and three of the second. -/
lemma copyMachine_kernelPlace : ∀ i < 4,
    Mapped copyMachine.mem (copyMachine.cr3 / 4096) (3221250047 + i) ∧
      copyMachine.kernelPlace 3221250047 i
        = (if i < 1 then 303 else 304, (3221250047 + i) % 4096) := by
  unfold Mapped
  decide +kernel

lemma copyMachine_plain {f : ℕ} (hf : 300 ≤ f) : PlainFrame smallImage copyMachine.cr3 f := by
  have hcr3 : copyMachine.cr3 / 4096 = 1 := rfl
  refine ⟨?_, by rw [hcr3]; omega⟩
  rintro ⟨-, hlt⟩
  have hlt' : f < 2 + 256 := hlt
  omega

/-- The frames behind the pages and the buffer hold data. -/
lemma copyMachine_data {f : ℕ} (hf : 302 ≤ f) :
    DataFrame smallImage copyMachine 1228800 12286 4 f := by
  have htable : ∀ j < 4, Entry.physAddr.get (copyMachine.mem (1228800 / 4096 % 2 ^ 20)
      ((12286 + j) / 2 ^ 22)) = 301 := by decide +kernel
  refine ⟨copyMachine_plain (by omega), by omega, fun j hj => ?_⟩
  rw [htable j hj]
  omega

lemma copyMachine_range : UserRange smallImage noLocalmem copyMachine 1228800 12286 4 := by
  have hdir : ¬smallImage.HoldsTable (1228800 / 4096 % 2 ^ 20) :=
    (copyMachine_plain (by norm_num)).notTable
  refine ⟨hdir, by norm_num, by norm_num, by norm_num, fun i hi => (copyMachine_userPlace i hi).1,
    fun i hi => ?_, fun i hi => ?_⟩
  · exact looksUp_of_mapped copyMachine_running hdir (by omega) (by omega)
      (copyMachine_userPlace i hi).1
  · rw [(copyMachine_userPlace i hi).2]
    exact (copyMachine_plain (by split_ifs <;> omega)).notTable

lemma copyMachine_buffer : KernelBuffer smallImage copyMachine 1228800 12286 4 3221250047 := by
  refine ⟨by unfold highstart; norm_num, by norm_num, by norm_num,
    fun i hi => (copyMachine_kernelPlace i hi).1, fun i hi => ?_, fun i hi j hj => ?_⟩
  · rw [(copyMachine_kernelPlace i hi).2]
    exact (copyMachine_plain (by split_ifs <;> omega)).notTable
  · rw [(copyMachine_kernelPlace i hi).2, (copyMachine_userPlace j hj).2]
    split_ifs <;> omega

lemma copyMachine_user : Writable smallImage copyMachine 1228800 12286 4 12286
    (copyMachine.userPlace 1228800 12286) := by
  refine ⟨fun i hi => ?_, fun i hi j hj hne => ?_⟩
  · rw [(copyMachine_userPlace i hi).2]
    exact copyMachine_data (by split_ifs <;> omega)
  · rw [(copyMachine_userPlace i hi).2, (copyMachine_userPlace j hj).2]
    split_ifs <;> omega

lemma copyMachine_kernel : Writable smallImage copyMachine 1228800 12286 4 3221250047
    (copyMachine.kernelPlace 3221250047) := by
  refine ⟨fun i hi => ?_, fun i hi j hj hne => ?_⟩
  · rw [(copyMachine_kernelPlace i hi).2]
    exact copyMachine_data (by split_ifs <;> omega)
  · rw [(copyMachine_kernelPlace i hi).2, (copyMachine_kernelPlace j hj).2]
    split_ifs <;> omega

lemma copyMachine_windows : 1 + 2 * pagesIn 12286 4 ≤ freeWindows smallImage copyMachine.mem :=
  le_trans (by decide) copyMachine_freeWindows

/-- Four bytes of two user pages, and four bytes of two kernel pages. -/
theorem copies_are_exact_four :
    (∃ e, (commonVirtmemCopyUserToKernel (i686Cpu smallImage noLocalmem) 3221250047 1228800 12286
        4).run copyMachine = .ok (.ok (), e) ∧ CopiedExactly smallImage copyMachine e
        (copyMachine.kernelPlace 3221250047)
        (fun i => copyMachine.byteAt (copyMachine.userPlace 1228800 12286 i)) 4 5) ∧
    ∃ e, (commonVirtmemCopyKernelToUser (i686Cpu smallImage noLocalmem) 1228800 12286 3221250047
        4).run copyMachine = .ok (.ok (), e) ∧ CopiedExactly smallImage copyMachine e
        (copyMachine.userPlace 1228800 12286)
        (fun i => copyMachine.byteAt (copyMachine.kernelPlace 3221250047 i)) 4 5 := by
  have hexact := copies_are_exact copyMachine_running copyMachine_range copyMachine_windows
  rcases hexact.2 3221250047 copyMachine_buffer copyMachine_user with ⟨e, hrun, hcopied, -⟩
  exact ⟨hexact.1 3221250047 copyMachine_buffer copyMachine_kernel, e, hrun, hcopied⟩

/-- **The entry of the mapping is not the only one that changes.** -/
theorem copy_takes_lookup_pages :
    ¬∀ e, (commonVirtmemCopyUserToKernel (i686Cpu smallImage noLocalmem) 3221250047 1228800 12286
        4).run copyMachine = .ok (.ok (), e) →
      ∃ j, ∀ i < 2 ^ 18, i ≠ j →
        kernelFlatpt smallImage e.mem i = kernelFlatpt smallImage copyMachine.mem i := by
  intro hall
  rcases copyUserToKernel_run copyMachine_range copyMachine_running copyMachine_buffer
    copyMachine_kernel.data copyMachine_windows with ⟨e, W, hrun, hopens, hcard⟩
  rcases hall e hrun with ⟨j, hsame⟩
  have hfive : 1 < W.card := by
    rw [hcard]
    decide
  rcases Finset.exists_mem_ne hfive j with ⟨i, hi, hne⟩
  have hfresh := hopens.mem.fresh i hi
  have hopened := hopens.mem.opened i hi
  rw [kernelFlatpt_copied (fun n hn => (copyMachine_kernel.data n hn).plain.notTable) hfresh.1,
    ← hsame i hfresh.1 hne] at hfresh
  omega

end Akaris
