import Akaris.Virtmem.Spaces

/-!
# User pages

What mapping a user page does to the translations of the hardware.  A walk finds the page table of
the page or makes a blank one, which translates no page, and then one entry of that table changes.
Since no two entries of page directories name one page table (`Roles.apart`), all other user pages
keep their translations.

* **`user_page_mapped`** — in every run, mapping a page and setting its flags is a change of one
  page of one address space: all other user pages and all kernel pages that are mapped are
  translated as before.  The kernel pages that are not mapped are not: the windows of the walks stay.
-/

namespace Akaris

variable {ρ : Type} {K : KernelImage} {L : Localmem ρ}

-- the rules are all that is used of it: computing it would run the program
attribute [local irreducible] Prog.wp

/-- The page table entry that the hardware comes to for the address `v`. -/
def pageEntry (mem : PhysMem) (d v : ℕ) : Word :=
  mem (Entry.physAddr.get (mem d (v / 2 ^ 22))) (v / 2 ^ 12 % 2 ^ 10)

/-- The entry of a user page, 0 when there is no page table for it. -/
def userEntry (mem : PhysMem) (d v : ℕ) : Word :=
  if Entry.present.get (mem d (v / 2 ^ 22)) = 1 then pageEntry mem d v else 0

/-- What the entry of a user page says to the hardware. -/
def entryTranslation (x : Word) : Option Translation :=
  if Entry.present.get x = 1 then
    some ⟨Entry.physAddr.get x, Entry.writable.get x == 1, Entry.user.get x == 1⟩
  else none

/-- The number of kernel pages that a walk for `v` takes. -/
def walkWindows (t : Machine ρ) (d v : ℕ) : ℕ :=
  if Entry.present.get (t.mem d (v / 2 ^ 22)) = 1 then 2 else 3

/-- The frames of the page tables that are in use. -/
def userTables (mem : PhysMem) (D : Set ℕ) : Set ℕ :=
  { f | ∃ d ∈ D, ∃ w < 768, Entry.present.get (mem d w) = 1 ∧ Entry.physAddr.get (mem d w) = f }

/-- A call on `v` gets to the entry of the page: the page is not the first one of the address space,
and all that the call needs can be allocated. -/
def Effective (K : KernelImage) (L : Localmem ρ) (t : Machine ρ) (c v : ℕ) : Prop :=
  4096 ≤ v ∧ ¬Unavailable K L t c v

section UserPages

variable {D : Set ℕ} {s t t' u : Machine ρ} {W : Finset ℕ} {mem : PhysMem}
  {c d d' f k n v v' : ℕ}

/-! ## Entries of user pages -/

lemma userEntry_absent (h0 : Entry.present.get (mem d (v / 2 ^ 22)) = 0) :
    userEntry mem d v = 0 := by
  rw [userEntry, h0, if_neg zero_ne_one]

lemma userEntry_userPde (hpde : mem d (v / 2 ^ 22) = userPde f) (hf : f < 2 ^ 20) :
    userEntry mem d v = mem f (v / 2 ^ 12 % 2 ^ 10) := by
  rw [userEntry, pageEntry, hpde, present_userPde, if_pos rfl, physAddr_userPde hf]

/-- The addresses of a page have one entry. -/
lemma userEntry_page (hpage : v' / 4096 = v / 4096) : userEntry mem d v' = userEntry mem d v := by
  have hdir : v' / 2 ^ 22 = v / 2 ^ 22 := by omega
  have hindex : v' / 2 ^ 12 % 2 ^ 10 = v / 2 ^ 12 % 2 ^ 10 := by omega
  unfold userEntry pageEntry
  rw [hdir, hindex]

lemma userHalf (hv : v < highstart) : v / 2 ^ 22 < 768 := by
  unfold highstart at hv
  omega

/-- **A user page is translated as its entry says.** -/
lemma Roles.translation (h : Roles K L D t) (hd : d ∈ D) (hv : v < highstart) :
    mmuTranslate t.mem d v = entryTranslation (userEntry t.mem d v) := by
  rcases present_cases (t.mem d (v / 2 ^ 22)) with h0 | h1
  · have hnot : Entry.present.get (t.mem d (v / 2 ^ 22)) ≠ 1 := by
      rw [h0]
      exact zero_ne_one
    rw [mmuTranslate, if_neg fun h => hnot h.1, userEntry_absent h0, entryTranslation,
      Field.get_zero, if_neg zero_ne_one]
  · rcases h.present d hd _ (userHalf hv) h1 with ⟨f, hpde, hf, -⟩
    rw [userEntry_userPde hpde hf]
    unfold mmuTranslate entryTranslation
    simp only [hpde, physAddr_userPde hf, present_userPde, writable_userPde, user_userPde, true_and,
      BEq.rfl, Bool.true_and]

/-- The entry of a user page depends on the entry of the page directory and on the page table. -/
lemma Roles.userEntry_congr (h : Roles K L D t) (hd : d ∈ D) (hv : v < highstart)
    (hpde : mem d (v / 2 ^ 22) = t.mem d (v / 2 ^ 22))
    (htable : ∀ f, t.mem d (v / 2 ^ 22) = userPde f → f < 2 ^ 20 →
      UserTable K L D t.localmem f →
        mem f (v / 2 ^ 12 % 2 ^ 10) = t.mem f (v / 2 ^ 12 % 2 ^ 10)) :
    userEntry mem d v = userEntry t.mem d v := by
  rcases present_cases (t.mem d (v / 2 ^ 22)) with h0 | h1
  · rw [userEntry_absent h0, userEntry_absent (by rw [hpde, h0])]
  · rcases h.present d hd _ (userHalf hv) h1 with ⟨f, hf, hlt, huser⟩
    rw [userEntry_userPde hf hlt, userEntry_userPde (hpde.trans hf) hlt, htable f hf hlt huser]

/-- Opening windows leaves user pages alone. -/
lemma Roles.userEntry_opens (h : Roles K L D t) (hopens : Opens K W t s) (hd : d ∈ D)
    (hv : v < highstart) : userEntry s.mem d v = userEntry t.mem d v :=
  h.userEntry_congr hd hv (hopens.outside (h.notTable hd))
    fun _ _ _ huser => hopens.outside huser.spare.notTable

/-- **A new page table** is blank. -/
lemma Roles.userEntry_pdeStep (h : Roles K L D t) (hd : d ∈ D)
    (hstep : PdeStep K L t d k t' f n) (hd' : d' ∈ D) (hv : v < highstart) :
    userEntry t'.mem d' v = userEntry t.mem d' v := by
  cases hstep with
  | found _ => rfl
  | failed _ _ => rfl
  | created h0 hf halloc =>
      have hspare := h.free f hf
      have hlt := (L.free_range _ f hf).2
      have hne : d' ≠ f := by
        rintro rfl
        exact hspare.notDirectory hd'
      show userEntry ((zeroFrame t.mem f).write d k (userPde f)) d' v = _
      by_cases hc : d' = d ∧ v / 2 ^ 22 = k
      · -- the page had no page table, and has a blank one now
        rcases hc with ⟨rfl, rfl⟩
        rw [userEntry_absent h0, userEntry_userPde write_self hlt, write_of_frame_ne hne.symm,
          zeroFrame_self (by omega)]
      · refine h.userEntry_congr hd' hv ?_ fun f' _ _ huser => ?_
        · rw [PhysMem.write, if_neg hc, zeroFrame_of_ne hne]
        · have hff' : f' ≠ f := by
            rintro rfl
            exact huser.taken hf
          have hfd : f' ≠ d := by
            rintro rfl
            exact huser.spare.notDirectory hd
          rw [write_of_frame_ne hfd, zeroFrame_of_ne hff']

/-- **Changing an entry** changes one page of one page directory, and none in frame 0. -/
lemma Roles.userEntry_changeEntry (h : Roles K L D s) (hd : d ∈ D) (hv : v < highstart)
    (hspare : Spare K D f) (htable : f ≠ 0 → s.mem d (v / 2 ^ 22) = userPde f ∧ f < 2 ^ 20)
    (g : Word → Word) (hd' : d' ∈ D) (hv' : v' < highstart)
    (hother : f ≠ 0 → d' ≠ d ∨ v' / 4096 ≠ v / 4096) :
    userEntry (s.changeEntry f v g).mem d' v' = userEntry s.mem d' v' := by
  refine h.userEntry_congr hd' hv' (write_of_frame_ne ?_) fun f' hpde' hf' huser => ?_
  · rintro rfl
    exact hspare.notDirectory hd'
  · by_cases hff' : f' = f
    · -- one page table, so one page directory and one entry of it
      obtain rfl := hff'
      rcases htable huser.ne_zero with ⟨hpde, hf⟩
      have hsame := h.apart d' hd' d hd _ (userHalf hv') _ (userHalf hv)
        (by rw [hpde', present_userPde]) (by rw [hpde, present_userPde])
        (by rw [hpde', hpde])
      have hindex : v' / 2 ^ 12 % 2 ^ 10 ≠ v / 2 ^ 12 % 2 ^ 10 := by
        rcases hother huser.ne_zero with hne | hne
        · exact absurd hsame.1 hne
        · have hdir := hsame.2
          omega
      exact if_neg fun hc => hindex hc.2
    · exact write_of_frame_ne hff'

/-! ## Calls on a page -/

/-- **A call on a page that came back**: it changed the entry of the page by `g` if it was
effective, and no other. -/
structure PageCalled (K : KernelImage) (L : Localmem ρ) (D : Set ℕ) (t : Machine ρ) (c v : ℕ)
    (g : Word → Word) (s : Machine ρ) : Prop where
  step : Step K L D t s
  entry : Effective K L t c v →
    userEntry s.mem (c / 4096 % 2 ^ 20) v = g (userEntry t.mem (c / 4096 % 2 ^ 20) v)
  others : ∀ d' ∈ D, ∀ v' < highstart,
    (Effective K L t c v → d' ≠ c / 4096 % 2 ^ 20 ∨ v' / 4096 ≠ v / 4096) →
      userEntry s.mem d' v' = userEntry t.mem d' v'
  tables : userTables s.mem D ⊆ userTables t.mem D ∪ L.free t.localmem

/-- Changes that the page directories do not see. -/
lemma userTables_congr {mem' : PhysMem} (h : ∀ d ∈ D, ∀ w < 768, mem' d w = mem d w) :
    userTables mem' D = userTables mem D := by
  ext f
  constructor
  · rintro ⟨d, hd, w, hw, h1, hframe⟩
    rw [h d hd w hw] at h1 hframe
    exact ⟨d, hd, w, hw, h1, hframe⟩
  · rintro ⟨d, hd, w, hw, h1, hframe⟩
    rw [← h d hd w hw] at h1 hframe
    exact ⟨d, hd, w, hw, h1, hframe⟩

/-- The page tables after a walk: there may be a new one. -/
lemma Roles.userTables_pdeStep (h : Roles K L D t) (hstep : PdeStep K L t d k t' f n) :
    userTables t'.mem D ⊆ userTables t.mem D ∪ L.free t.localmem := by
  cases hstep with
  | found _ => exact Set.subset_union_left
  | failed _ _ => exact Set.subset_union_left
  | created h0 hf halloc =>
      have hspare := h.free f hf
      rintro f' ⟨d', hd', w, hw, h1, hframe⟩
      have hne : d' ≠ f := by
        rintro rfl
        exact hspare.notDirectory hd'
      simp only [PhysMem.write, zeroFrame_of_ne hne] at h1 hframe
      split_ifs at h1 hframe with hc
      · rw [physAddr_userPde (L.free_range _ f hf).2] at hframe
        exact Or.inr (hframe ▸ hf)
      · exact Or.inl ⟨d', hd', w, hw, h1, hframe⟩

lemma Roles.freeWindows_pdeStep (h : Roles K L D t) (hd : d ∈ D)
    (hstep : PdeStep K L t d k t' f n) : freeWindows K t'.mem = freeWindows K t.mem := by
  cases hstep with
  | found _ => rfl
  | failed _ _ => rfl
  | created h0 hf halloc =>
      have hspare := h.free f hf
      refine freeWindows_congr fun f' w hf' => ?_
      show (zeroFrame t.mem f).write d k (userPde f) f' w = t.mem f' w
      rw [write_of_frame_ne, zeroFrame_of_ne]
      · rintro rfl
        exact hspare.notTable hf'
      · rintro rfl
        exact h.notTable hd hf'

/-- What a walk found. -/
lemma Roles.walked_table {r : I686PagewalkContext × ℕ} (h : Roles K L D t)
    (hd : c / 4096 % 2 ^ 20 ∈ D) (hv : v < highstart)
    (hwalked : Walked K L t (c / 4096 % 2 ^ 20) v W t' f r s) :
    (Effective K L t c v ↔ f ≠ 0) ∧
      (f ≠ 0 → s.mem (c / 4096 % 2 ^ 20) (v / 2 ^ 22) = userPde f ∧ f < 2 ^ 20) := by
  rcases hwalked.step with ⟨f', n, hstep, hcard, hframe⟩
  have hopens := hwalked.opens.outside (f := c / 4096 % 2 ^ 20) (w := v / 2 ^ 22) (h.notTable hd)
  have hkeeps := (h.pdeStep hd (userHalf hv) hstep).2.1
  have hwindows := hwalked.opens.mem.freeWindows
  rw [hcard] at hwindows
  by_cases hpage : v / 2 ^ 12 = 0
  · -- the walk ends in frame 0
    rcases hwalked.entry with ⟨i, hi, -, -, hshows, hzero⟩
    rcases hzero hpage with ⟨hfresh, hstale⟩
    have hf : f = 0 := hstale.trans (h.blank i hshows.lt hfresh)
    exact ⟨iff_of_false (fun he => by have := he.1; omega) (not_not_intro hf), fun hne => absurd hf hne⟩
  · obtain rfl : f = f' := hframe hpage
    have hlo : 4096 ≤ v := by omega
    rw [h.freeWindows_pdeStep hd hstep] at hwindows
    rw [hopens]
    cases hstep with
    | found h1 =>
        rcases h.present _ hd _ (userHalf hv) h1 with ⟨f, hpde, hf, huser⟩
        have hne := huser.ne_zero
        rw [hpde, physAddr_userPde hf]
        refine ⟨iff_of_true ⟨hlo, ?_⟩ hne, fun _ => ⟨rfl, hf⟩⟩
        rintro (hfew | ⟨h0, -⟩)
        · omega
        · rw [h1] at h0
          exact one_ne_zero h0
    | created h0 hf halloc =>
        have hrange := L.free_range _ f hf
        refine ⟨iff_of_true ⟨hlo, ?_⟩ hrange.1.ne', fun _ => ⟨write_self, hrange.2⟩⟩
        rintro (hfew | ⟨-, ⟨e, he⟩ | hfew⟩)
        · omega
        · rw [halloc] at he
          exact absurd he (by simp)
        · omega
    | failed h0 hfail =>
        have hzero := h.absent _ hd _ (userHalf hv) h0
        refine ⟨iff_of_false (fun he => he.2 (Or.inr ⟨h0, ?_⟩)) (not_not_intro hzero),
          fun hne => absurd hzero hne⟩
        exact hfail.imp_right fun htwo => by omega

/-- **What is stored through a walk.** -/
lemma Roles.called {r : I686PagewalkContext × ℕ} (h : Roles K L D t)
    (hd : c / 4096 % 2 ^ 20 ∈ D) (hv : v < highstart)
    (hwalked : Walked K L t (c / 4096 % 2 ^ 20) v W t' f r s) (g : Word → Word) :
    PageCalled K L D t c v g (s.changeEntry f v g) := by
  rcases h.walked hd hv hwalked with ⟨hroles, hkeeps, has, hspare⟩
  rcases h.walked_table hd hv hwalked with ⟨heffective, htable⟩
  rcases hwalked.step with ⟨f', n, hstep, -, -⟩
  have hroles' := (h.pdeStep hd (userHalf hv) hstep).1
  have hchange := hroles.changeEntry (v := v) hspare g
  -- up to the store, no entry has changed
  have hbefore : ∀ d' ∈ D, ∀ v' < highstart, userEntry s.mem d' v' = userEntry t.mem d' v' := by
    intro d' hd' v' hv'
    rw [hroles'.userEntry_opens hwalked.opens hd' hv', h.userEntry_pdeStep hd hstep hd' hv']
  have hdir : ∀ d' ∈ D, ∀ w, (s.changeEntry f v g).mem d' w = t'.mem d' w := by
    intro d' hd' w
    rw [← hwalked.opens.outside (h.notTable hd')]
    refine write_of_frame_ne ?_
    rintro rfl
    exact hspare.notDirectory hd'
  refine ⟨⟨hchange.1, hkeeps.trans hchange.2, has⟩, fun heff => ?_,
    fun d' hd' v' hv' hother => ?_, ?_⟩
  · rcases htable (heffective.mp heff) with ⟨hpde, hf⟩
    have hpde' : (s.changeEntry f v g).mem (c / 4096 % 2 ^ 20) (v / 2 ^ 22) = userPde f := by
      rw [hdir _ hd, ← hpde, hwalked.opens.outside (h.notTable hd)]
    rw [← hbefore _ hd v hv, userEntry_userPde hpde hf, userEntry_userPde hpde' hf]
    exact write_self
  · rw [← hbefore d' hd' v' hv']
    exact hroles.userEntry_changeEntry hd hv hspare htable g hd' hv'
      fun hne => hother (heffective.mpr hne)
  · rw [userTables_congr fun d' hd' w _ => hdir d' hd' w]
    exact h.userTables_pdeStep hstep

lemma OutOfWindows.few (h : OutOfWindows K t s) : freeWindows K t.mem < 2 := by
  rcases h with ⟨ctx, W, hfailed⟩
  rw [hfailed.full]
  exact hfailed.few

/-- A call for which there was no window. -/
lemma Roles.called_outOfWindows (h : Roles K L D t) (hout : OutOfWindows K t s)
    (g : Word → Word) : PageCalled K L D t c v g s := by
  refine ⟨h.outOfWindows hout, fun heff => absurd (Or.inl hout.few) heff.2,
    fun d hd v hv _ => ?_, ?_⟩
  · rcases hout with ⟨ctx, W, hfailed⟩
    exact h.userEntry_opens hfailed.opens hd hv
  · rcases hout with ⟨ctx, W, hfailed⟩
    rw [userTables_congr fun d hd w _ => hfailed.opens.outside (h.notTable hd)]
    exact Set.subset_union_left

lemma write_same {w : ℕ} : mem.write f w (mem f w) = mem := by
  funext f' w'
  unfold PhysMem.write
  split_ifs with hc
  · rw [hc.1, hc.2]
  · rfl

lemma changeEntry_id : s.changeEntry f v id = s := by
  unfold Machine.changeEntry
  rw [id_eq, write_same]

/-- What a call does to the entry of its page. -/
def pageOp : UserPageCall → Word → Word
  | .getPage => id
  | .mapPage p => fun x => Entry.physAddr.set x (p / 4096)
  | .setPageFlags flags => flagsEntry flags

/-- **Every call** that comes back, whether it found what it needs or not. -/
lemma Roles.userPageCall_called (h : Roles K L D t) (hd : c / 4096 % 2 ^ 20 ∈ D)
    (hv : v < highstart) (call : UserPageCall) :
    Prog.wp (userPageCall K L c v call) (fun _ s' => PageCalled K L D t c v (pageOp call) s')
      (fun _ => True) t := by
  have hv' : v < 2 ^ 32 := by
    unfold highstart at hv
    omega
  cases call with
  | getPage =>
      refine (Prog.wp_bind _ _).mpr (Prog.wp_mono (i686UserGetPage_wp h.running (h.notTable hd) hv'
        fun _ => h.canWipe) ?_ fun _ he => he.elim)
      rintro _ s' (⟨W, t', f, r, hwalked, -⟩ | ⟨-, hout⟩)
      · have hcalled := h.called hd hv hwalked id
        rw [changeEntry_id] at hcalled
        exact (Prog.wp_pure _).mpr hcalled
      · exact (Prog.wp_pure _).mpr (h.called_outOfWindows hout _)
  | mapPage p =>
      refine Prog.wp_mono (i686UserMapPage_wp h.running (h.notTable hd) hv' (fun _ => h.canWipe) p)
        ?_ fun _ he => he.elim
      rintro _ s' (⟨W, t', f, r, s, hwalked, -, rfl⟩ | ⟨-, hout⟩)
      · exact h.called hd hv hwalked _
      · exact h.called_outOfWindows hout _
  | setPageFlags flags =>
      refine Prog.wp_mono (i686UserSetPageFlags_wp h.running (h.notTable hd) hv'
        (fun _ => h.canWipe) flags) ?_ fun _ _ => trivial
      rintro _ s' ⟨W, t', f, r, s, hwalked, -, rfl⟩
      exact h.called hd hv hwalked _

/-! ## Calls that are effective -/

/-- **The entry of one page was changed** by `g`, in a page table of its own that was found or
made. -/
structure PageChanged (K : KernelImage) (L : Localmem ρ) (D : Set ℕ) (t : Machine ρ) (c v : ℕ)
    (g : Word → Word) (s : Machine ρ) : Prop where
  effective : Effective K L t c v
  called : PageCalled K L D t c v g s
  table : ∃ f, s.mem (c / 4096 % 2 ^ 20) (v / 2 ^ 22) = userPde f
  windows : freeWindows K s.mem + walkWindows t (c / 4096 % 2 ^ 20) v = freeWindows K t.mem
  taken : ∃ i < 2 ^ 18, Entry.present.get (kernelFlatpt K t.mem i) = 0 ∧
    Entry.present.get (kernelFlatpt K s.mem i) = 1

/-- The number of windows of a walk that gets to the page. -/
lemma PdeStep.windows (h : Roles K L D t) (hd : d ∈ D) (hk : k < 768)
    (hstep : PdeStep K L t d k t' f n) (hf : f ≠ 0) :
    2 + n = if Entry.present.get (t.mem d k) = 1 then 2 else 3 := by
  cases hstep with
  | found h1 => rw [h1, if_pos rfl]
  | created h0 _ _ => rw [h0, if_neg zero_ne_one]
  | failed h0 _ => exact absurd (h.absent d hd k hk h0) hf

/-- **What an effective call stores.** -/
lemma Roles.changed {r : I686PagewalkContext × ℕ} (h : Roles K L D t)
    (hd : c / 4096 % 2 ^ 20 ∈ D) (hv : v < highstart) (heff : Effective K L t c v)
    (hwalked : Walked K L t (c / 4096 % 2 ^ 20) v W t' f r s) (g : Word → Word) :
    PageChanged K L D t c v g (s.changeEntry f v g) ∧
      s.mem f (v / 2 ^ 12 % 2 ^ 10) = userEntry s.mem (c / 4096 % 2 ^ 20) v := by
  rcases h.walked hd hv hwalked with ⟨hroles, -, -, hspare⟩
  rcases h.walked_table hd hv hwalked with ⟨heffective, htable⟩
  have hf := heffective.mp heff
  rcases htable hf with ⟨hpde, hlt⟩
  rcases hwalked.step with ⟨f', n, hstep, hcard, hframe⟩
  have hlo := heff.1
  obtain rfl : f = f' := hframe (by omega)
  have hchange := hroles.changeEntry (v := v) hspare g
  refine ⟨⟨heff, h.called hd hv hwalked g, ⟨f, ?_⟩, ?_, ?_⟩, (userEntry_userPde hpde hlt).symm⟩
  · rw [← hpde]
    refine write_of_frame_ne fun hdf => ?_
    exact hspare.notDirectory (hdf ▸ hd)
  · have hopened := hwalked.opens.mem.freeWindows
    have hkept : freeWindows K (s.changeEntry f v g).mem = freeWindows K s.mem := by
      refine freeWindows_congr fun f' w hf' => write_of_frame_ne ?_
      rintro rfl
      exact hspare.notTable hf'
    rw [hkept, walkWindows, ← h.freeWindows_pdeStep hd hstep, ← hopened, hcard,
      hstep.windows h hd (userHalf hv) hf]
  · rcases hwalked.entry with ⟨i, hi, -⟩
    have hlt := (hwalked.opens.mem.fresh i hi).1
    refine ⟨i, hlt, ?_, ?_⟩
    · have hfresh := (hwalked.opens.mem.fresh i hi).2
      -- what the walk does to the page directory is not seen by the kernel page tables
      rcases present_cases (kernelFlatpt K t.mem i) with h0 | h1
      · exact h0
      · rw [(h.pdeStep hd (userHalf hv) hstep).2.1.pages i hlt h1, h1] at hfresh
        exact absurd hfresh one_ne_zero
    · have hopened := hwalked.opens.mem.opened i hi
      rw [hchange.2.pages i hlt hopened, hopened]

/-! ## Entries -/

@[simp] lemma present_flagsEntry (flags : ℕ) (x : Word) :
    Entry.present.get (flagsEntry flags x) = 1 := by
  rw [flagsEntry, Field.get_set_self]
  rfl

@[simp] lemma physAddr_flagsEntry (flags : ℕ) (x : Word) :
    Entry.physAddr.get (flagsEntry flags x) = Entry.physAddr.get x := by
  simp (disch := decide) only [flagsEntry, Field.get_set_of_disjoint]

lemma bittestl_eq_one {field mask : ℕ} : bittestl field mask = 1 ↔ field &&& mask = mask := by
  unfold bittestl
  split_ifs with hc <;> simp [hc]

lemma writable_flagsEntry (flags : ℕ) (x : Word) :
    Entry.writable.get (flagsEntry flags x) = 1 ↔
      flags &&& virtmemPageWritable = virtmemPageWritable := by
  simp (disch := decide) only [flagsEntry, Field.get_set_of_disjoint, Field.get_set_self]
  have hbit := bittestl_lt flags virtmemPageWritable
  rw [← bittestl_eq_one]
  exact Eq.congr_left (Nat.mod_eq_of_lt hbit)

lemma user_flagsEntry (flags : ℕ) (x : Word) :
    Entry.user.get (flagsEntry flags x) = 1 ↔
      flags &&& virtmemPageReadable = virtmemPageReadable := by
  simp (disch := decide) only [flagsEntry, Field.get_set_of_disjoint, Field.get_set_self]
  have hbit := bittestl_lt flags virtmemPageReadable
  rw [← bittestl_eq_one]
  exact Eq.congr_left (Nat.mod_eq_of_lt hbit)

section Calls

variable (h : Roles K L D t) (hd : c / 4096 % 2 ^ 20 ∈ D) (hv : v < highstart)
  (heff : Effective K L t c v)

include heff

omit h hd hv in
lemma Effective.two_le : 2 ≤ freeWindows K t.mem := by
  by_contra hfew
  exact heff.2 (Or.inl (by omega))

include h hd hv

/-- **`user_map_page`** changes the address. -/
lemma Roles.mapPage_wp (p : ℕ) :
    Prog.wp (i686UserMapPage K L c v p)
      (fun r s => r = .ok () ∧ PageChanged K L D t c v (pageOp (.mapPage p)) s)
      (fun _ => False) t := by
  have hv' : v < 2 ^ 32 := by
    unfold highstart at hv
    omega
  have htwo := heff.two_le
  refine Prog.wp_mono (i686UserMapPage_wp h.running (h.notTable hd) hv' (fun _ => h.canWipe) p)
    ?_ fun _ he => he.elim
  rintro _ s' (⟨W, t', f, r, s, hwalked, rfl, rfl⟩ | ⟨-, hout⟩)
  · exact ⟨rfl, (h.changed hd hv heff hwalked _).1⟩
  · have hfew := hout.few
    omega

/-- **`user_set_page_flags`** changes the flags. -/
lemma Roles.setPageFlags_wp (flags : ℕ) :
    Prog.wp (i686UserSetPageFlags K L c v flags)
      (fun r s => r = .ok () ∧ PageChanged K L D t c v (pageOp (.setPageFlags flags)) s)
      (fun _ => False) t := by
  have hv' : v < 2 ^ 32 := by
    unfold highstart at hv
    omega
  have htwo := heff.two_le
  refine Prog.wp_mono (i686UserSetPageFlags_wp h.running (h.notTable hd) hv'
    (fun _ => h.canWipe) flags) ?_ ?_
  · rintro _ s' ⟨W, t', f, r, s, hwalked, rfl, rfl⟩
    exact ⟨rfl, (h.changed hd hv heff hwalked _).1⟩
  · rintro _ ⟨-, hfew⟩
    omega

/-- **`user_get_page`** reads the address. -/
lemma Roles.getPage_wp :
    Prog.wp (i686UserGetPage K L c v)
      (fun r s => PageChanged K L D t c v (pageOp .getPage) s ∧
        r = .ok (Entry.physAddr.get (userEntry s.mem (c / 4096 % 2 ^ 20) v) * 4096))
      (fun _ => False) t := by
  have hv' : v < 2 ^ 32 := by
    unfold highstart at hv
    omega
  have htwo := heff.two_le
  refine Prog.wp_mono (i686UserGetPage_wp h.running (h.notTable hd) hv' fun _ => h.canWipe)
    ?_ fun _ he => he.elim
  rintro _ s (⟨W, t', f, r, hwalked, rfl⟩ | ⟨-, hout⟩)
  · have hchanged := h.changed hd hv heff hwalked id
    rw [changeEntry_id] at hchanged
    rw [← hchanged.2]
    exact ⟨hchanged.1, rfl⟩
  · have hfew := hout.few
    omega

end Calls

/-! ## Mapping a page -/

/-- Page `v` of the address space `as` is mapped to `p` with `flags` and read back, and after that
the pages of `U` in all address spaces, but for this one, are translated as before. -/
def MapsIsolated (K : KernelImage) (L : Localmem ρ) (s : Machine ρ) (live : List ℕ)
    (as v p flags : ℕ) (U : Set ℕ) : Prop :=
  ∃ s₁ s₂ s₃, (i686UserMapPage K L (s.as as).pd v p).run s = .ok (.ok (), s₁) ∧
    (i686UserSetPageFlags K L (s.as as).pd v flags).run s₁ = .ok (.ok (), s₂) ∧
    (i686UserGetPage K L (s.as as).pd v).run s₂ = .ok (.ok p, s₃) ∧
    (∃ x, mmuTranslate s₂.mem (directoryOf s as) v = some x ∧ x.frame * 4096 = p ∧
      (x.writable = true ↔ flags &&& virtmemPageWritable = virtmemPageWritable) ∧
      (x.user = true ↔ flags &&& virtmemPageReadable = virtmemPageReadable)) ∧
    ∀ b ∈ live, ∀ v' ∈ U, b ≠ as ∨ v' / 4096 ≠ v / 4096 →
      mmuTranslate s₂.mem (directoryOf s b) v' = mmuTranslate s.mem (directoryOf s b) v'

/-- There are the frame and the kernel pages for the three calls: two kernel pages for each, and
one more to wipe a new page table. -/
def AllocationsSucceed (K : KernelImage) (L : Localmem ρ) (t : Machine ρ) (d v : ℕ) : Prop :=
  if Entry.present.get (t.mem d (v / 2 ^ 22)) = 1 then 6 ≤ freeWindows K t.mem
  else 7 ≤ freeWindows K t.mem ∧ ∃ p, (L.pageAlloc t.localmem).1 = .ok p

lemma AllocationsSucceed.effective (h : AllocationsSucceed K L t (c / 4096 % 2 ^ 20) v)
    (hlo : 4096 ≤ v) : Effective K L t c v ∧
      walkWindows t (c / 4096 % 2 ^ 20) v + 4 ≤ freeWindows K t.mem := by
  unfold AllocationsSucceed at h
  unfold walkWindows
  split_ifs at h ⊢ with h1
  · refine ⟨⟨hlo, ?_⟩, by omega⟩
    rintro (hfew | ⟨h0, -⟩)
    · omega
    · rw [h1] at h0
      exact one_ne_zero h0
  · rcases h with ⟨hseven, p, hp⟩
    refine ⟨⟨hlo, ?_⟩, by omega⟩
    rintro (hfew | ⟨-, ⟨e, he⟩ | hfew⟩)
    · omega
    · rw [hp] at he
      exact absurd he (by simp)
    · omega

/-- Once the page table is there, two kernel pages are enough. -/
lemma PageChanged.effective_next {g : Word → Word} (h : PageChanged K L D t c v g s)
    (htwo : 2 ≤ freeWindows K s.mem) :
    Effective K L s c v ∧ walkWindows s (c / 4096 % 2 ^ 20) v = 2 := by
  rcases h.table with ⟨f, hpde⟩
  refine ⟨⟨h.effective.1, ?_⟩, ?_⟩
  · rintro (hfew | ⟨h0, -⟩)
    · omega
    · rw [hpde, present_userPde] at h0
      exact one_ne_zero h0
  · rw [walkWindows, hpde, present_userPde, if_pos rfl]

lemma Step.trans (h : Step K L D t s) (h' : Step K L D s u) : Step K L D t u :=
  ⟨h'.roles, h.keeps.trans h'.keeps, h'.as.trans h.as⟩

/-- Kernel pages that are mapped stay so. -/
lemma Step.translation_kernel (hstep : Step K L D t s) (h : Roles K L D t) (hd : d ∈ D)
    (hlo : highstart ≤ v) (hv : v < 2 ^ 32) (hmapped : mmuTranslate t.mem K.kernelPd v ≠ none) :
    mmuTranslate s.mem d v = mmuTranslate t.mem d v := by
  rcases exists_window hlo hv with ⟨i, hi, o, ho, rfl⟩
  rw [mmuTranslate_kernel h.kernel hi ho] at hmapped
  rw [mmuTranslate_kernel (hstep.roles.linked d hd) hi ho, mmuTranslate_kernel (h.linked d hd) hi ho]
  rcases present_cases (kernelFlatpt K t.mem i) with h0 | h1
  · rw [h0, if_neg zero_ne_one] at hmapped
    exact absurd rfl hmapped
  · rw [hstep.keeps.pages i hi h1]

/-- The three calls, and what each of them changes. -/
structure PageMapped (K : KernelImage) (L : Localmem ρ) (D : Set ℕ) (t : Machine ρ)
    (c v p flags : ℕ) (s₁ s₂ s₃ : Machine ρ) : Prop where
  mapPage : (i686UserMapPage K L c v p).run t = .ok (.ok (), s₁)
  mapped : PageChanged K L D t c v (pageOp (.mapPage p)) s₁
  setFlags : (i686UserSetPageFlags K L c v flags).run s₁ = .ok (.ok (), s₂)
  flagged : PageChanged K L D s₁ c v (pageOp (.setPageFlags flags)) s₂
  getPage : (i686UserGetPage K L c v).run s₂ =
    .ok (.ok (Entry.physAddr.get (userEntry s₃.mem (c / 4096 % 2 ^ 20) v) * 4096), s₃)
  read : PageChanged K L D s₂ c v (pageOp .getPage) s₃

/-- **The three calls return** when the allocations succeed. -/
lemma Roles.pageMapped (h : Roles K L D t) (hd : c / 4096 % 2 ^ 20 ∈ D) (hlo : 4096 ≤ v)
    (hv : v < highstart) (havail : AllocationsSucceed K L t (c / 4096 % 2 ^ 20) v)
    (p flags : ℕ) : ∃ s₁ s₂ s₃, PageMapped K L D t c v p flags s₁ s₂ s₃ := by
  rcases havail.effective hlo with ⟨heff, hwindows⟩
  rcases Prog.wp_returns (h.mapPage_wp hd hv heff p) with ⟨_, s₁, hmap, rfl, h₁⟩
  have hwindows₁ := h₁.windows
  rcases h₁.effective_next (by omega) with ⟨heff₁, htwo₁⟩
  rcases Prog.wp_returns (h₁.called.step.roles.setPageFlags_wp hd hv heff₁ flags) with
    ⟨_, s₂, hset, rfl, h₂⟩
  have hwindows₂ := h₂.windows
  rcases h₂.effective_next (by omega) with ⟨heff₂, -⟩
  rcases Prog.wp_returns (h₂.called.step.roles.getPage_wp hd hv heff₂) with ⟨_, s₃, hget, h₃, rfl⟩
  exact ⟨s₁, s₂, s₃, hmap, h₁, hset, h₂, hget, h₃⟩

section Mapped

variable {s₁ s₂ s₃ : Machine ρ} {p flags : ℕ}

lemma PageMapped.step (h : PageMapped K L D t c v p flags s₁ s₂ s₃) : Step K L D t s₂ :=
  h.mapped.called.step.trans h.flagged.called.step

/-- The entry that the calls leave. -/
lemma PageMapped.entry (h : PageMapped K L D t c v p flags s₁ s₂ s₃) :
    userEntry s₂.mem (c / 4096 % 2 ^ 20) v = flagsEntry flags
      (Entry.physAddr.set (userEntry t.mem (c / 4096 % 2 ^ 20) v) (p / 4096)) := by
  rw [h.flagged.called.entry h.flagged.effective, h.mapped.called.entry h.mapped.effective]
  rfl

/-- The address in the entry, and the one that is read. -/
lemma PageMapped.frame (h : PageMapped K L D t c v p flags s₁ s₂ s₃) (hp : p < 2 ^ 32) :
    Entry.physAddr.get (userEntry s₂.mem (c / 4096 % 2 ^ 20) v) = p / 4096 ∧
      Entry.physAddr.get (userEntry s₃.mem (c / 4096 % 2 ^ 20) v) = p / 4096 := by
  have hframe : Entry.physAddr.get (userEntry s₂.mem (c / 4096 % 2 ^ 20) v) = p / 4096 := by
    rw [h.entry, physAddr_flagsEntry, Field.get_set_self]
    exact Nat.mod_eq_of_lt (by simp only [Entry.physAddr]; omega)
  refine ⟨hframe, ?_⟩
  rw [h.read.called.entry h.read.effective]
  exact hframe

/-- **The translation of the page.** -/
lemma PageMapped.translation (h : PageMapped K L D t c v p flags s₁ s₂ s₃)
    (hd : c / 4096 % 2 ^ 20 ∈ D) (hv : v < highstart) (hp : p < 2 ^ 32)
    (haligned : p % 4096 = 0) :
    ∃ x, mmuTranslate s₂.mem (c / 4096 % 2 ^ 20) v = some x ∧ x.frame * 4096 = p ∧
      (x.writable = true ↔ flags &&& virtmemPageWritable = virtmemPageWritable) ∧
      (x.user = true ↔ flags &&& virtmemPageReadable = virtmemPageReadable) := by
  have hpage : p / 4096 * 4096 = p := by omega
  refine ⟨_, (h.step.roles.translation hd hv).trans (if_pos ?_), ?_, ?_, ?_⟩
  · rw [h.entry, present_flagsEntry]
  · rw [(h.frame hp).1]
    exact hpage
  · rw [h.entry, beq_iff_eq, writable_flagsEntry]
  · rw [h.entry, beq_iff_eq, user_flagsEntry]

/-- The other user pages are translated as before. -/
lemma PageMapped.others (h : PageMapped K L D t c v p flags s₁ s₂ s₃) (hroles : Roles K L D t)
    (hd' : d' ∈ D) (hv' : v' < highstart)
    (hother : d' ≠ c / 4096 % 2 ^ 20 ∨ v' / 4096 ≠ v / 4096) :
    mmuTranslate s₂.mem d' v' = mmuTranslate t.mem d' v' := by
  rw [h.step.roles.translation hd' hv', hroles.translation hd' hv',
    h.flagged.called.others d' hd' v' hv' fun _ => hother,
    h.mapped.called.others d' hd' v' hv' fun _ => hother]

/-- The window of the first walk was not mapped before, and is now. -/
lemma PageMapped.window (h : PageMapped K L D t c v p flags s₁ s₂ s₃) (hroles : Roles K L D t)
    (hd : d ∈ D) : ∃ i < 2 ^ 18,
      mmuTranslate s₂.mem d (window i) ≠ mmuTranslate t.mem d (window i) := by
  rcases h.mapped.taken with ⟨i, hi, h0, h1⟩
  refine ⟨i, hi, fun hsame => ?_⟩
  have hbefore := mmuTranslate_kernel (hroles.linked d hd) hi (o := 0) (by norm_num)
  have hafter := mmuTranslate_kernel (h.step.roles.linked d hd) hi (o := 0) (by norm_num)
  rw [h0, if_neg zero_ne_one, Nat.add_zero] at hbefore
  rw [h.flagged.called.step.keeps.pages i hi h1, h1, if_pos rfl, Nat.add_zero] at hafter
  rw [hbefore, hafter] at hsame
  exact absurd hsame (Option.some_ne_none _)

end Mapped

section Runs

variable {r : SpaceRun ρ} {pg : List ℕ} {as p : ℕ}

/-- The pages that are kept apart: the user half, and the kernel pages that are mapped. -/
def keptPages (K : KernelImage) (t : Machine ρ) : Set ℕ :=
  { v | v < highstart ∨ v < 2 ^ 32 ∧ mmuTranslate t.mem K.kernelPd v ≠ none }

lemma SpaceInv.mapsIsolated (h : SpaceInv K L pg r) (has : as ∈ r.live) (hlo : 4096 ≤ v)
    (hv : v < highstart) (hp : p < 2 ^ 32) (haligned : p % 4096 = 0)
    (havail : AllocationsSucceed K L r.k.env (directoryOf r.k.env as) v) (flags : ℕ) :
    MapsIsolated K L r.k.env r.live as v p flags (keptPages K r.k.env) := by
  have hd : directoryOf r.k.env as ∈ directories r.k.env r.live := ⟨as, has, rfl⟩
  rcases h.roles.pageMapped hd hlo hv havail p flags with ⟨s₁, s₂, s₃, hpage⟩
  have hread : p / 4096 * 4096 = p := by omega
  refine ⟨s₁, s₂, s₃, hpage.mapPage, hpage.setFlags, ?_, hpage.translation hd hv hp haligned,
    fun b hb v' hv' hother => ?_⟩
  · rw [hpage.getPage, (hpage.frame hp).2, hread]
  · have hb' : directoryOf r.k.env b ∈ directories r.k.env r.live := ⟨b, hb, rfl⟩
    rcases lt_or_ge v' highstart with huser | hkernel
    · have hother' : directoryOf r.k.env b ≠ directoryOf r.k.env as ∨ v' / 4096 ≠ v / 4096 :=
        hother.imp_left fun hne heq => hne (h.distinct b hb as has heq)
      exact hpage.others h.roles hb' huser hother'
    · rcases hv' with huser | ⟨hlt, hmapped⟩
      · omega
      · exact hpage.step.translation_kernel h.roles hb' hkernel hlt hmapped

lemma SpaceInv.not_mapsIsolated (h : SpaceInv K L pg r) (has : as ∈ r.live) (hlo : 4096 ≤ v)
    (hv : v < highstart) (havail : AllocationsSucceed K L r.k.env (directoryOf r.k.env as) v)
    (flags : ℕ) : ¬MapsIsolated K L r.k.env r.live as v p flags { v' | v' < 2 ^ 32 } := by
  have hd : directoryOf r.k.env as ∈ directories r.k.env r.live := ⟨as, has, rfl⟩
  rcases h.roles.pageMapped hd hlo hv havail p flags with ⟨s₁, s₂, s₃, hpage⟩
  rintro ⟨u₁, u₂, u₃, hmap, hset, -, -, hall⟩
  rw [hpage.mapPage] at hmap
  obtain rfl := (Prod.mk.inj (Except.ok.inj hmap)).2
  rw [hpage.setFlags] at hset
  obtain rfl := (Prod.mk.inj (Except.ok.inj hset)).2
  rcases hpage.window h.roles hd with ⟨i, hi, hne⟩
  have hlt := window_lt hi
  refine hne (hall as has (window i) ?_ (Or.inr ?_))
  · show window i < 2 ^ 32
    omega
  · unfold window highstart at *
    omega

/-- **Mapping a user page.**  In every run in which the allocations succeed, the page is mapped with
the flags and read back, and all other user pages, and all kernel pages that are mapped, are
translated as before in every address space.  But a kernel page that was not mapped is mapped now,
so that the same is never true of all pages. -/
theorem user_page_mapped (hr : SpaceReachable K L r) (has : as ∈ r.live) (hlo : 0x1000 ≤ v)
    (hv : v < highstart) (hp : p < 2 ^ 32) (haligned : p % 4096 = 0)
    (havail : AllocationsSucceed K L r.k.env (directoryOf r.k.env as) v) (flags : ℕ) :
    MapsIsolated K L r.k.env r.live as v p flags (keptPages K r.k.env) ∧
    ¬MapsIsolated K L r.k.env r.live as v p flags { v' | v' < 2 ^ 32 } := by
  rcases hr.inv with ⟨pg, h⟩
  exact ⟨h.mapsIsolated has hlo hv hp haligned havail flags,
    h.not_mapsIsolated has hlo hv havail flags⟩

end Runs

end UserPages

/-! ## On the small machine -/

lemma smallSpace_available {as v : ℕ} {k : MachineKmem ℕ}
    (hrun : (addressSpaceAlloc smallImage).run smallSpaces.k = .ok (.ok as, k)) :
    AllocationsSucceed smallImage countingLocalmem k.env (directoryOf k.env as) v := by
  rcases smallSpaces_alloc hrun with ⟨hwindows, hlocal⟩
  unfold AllocationsSucceed
  split_ifs with h1
  · omega
  · refine ⟨by omega, 302 * 4096, ?_⟩
    rw [hlocal]
    rfl

/-- Mapping page `0x1000` of a new address space to `0x5000`. -/
theorem user_page_mapped_one : ∃ as k,
    (addressSpaceAlloc smallImage).run smallSpaces.k = .ok (.ok as, k) ∧
    MapsIsolated smallImage countingLocalmem k.env [as] as 0x1000 0x5000 3
      (keptPages smallImage k.env) := by
  rcases smallSpaces_returns with ⟨as, k, hrun⟩
  have hr := smallSpaces_reachable.tail (.spaceAlloc hrun)
  exact ⟨as, k, hrun, (user_page_mapped hr (List.mem_singleton_self as) (by norm_num)
    (by norm_num [highstart]) (by norm_num) (by norm_num) (smallSpace_available hrun) 3).1⟩

end Akaris
