import Akaris.Virtmem.Windows

/-!
# The allocator of kernel pages

`kernel_alloc`, `kernel_map_virt_to_phys` and `kernel_virt_to_phys` over whole runs, whatever
`kernel_flatpt` holds at the start.  A run keeps the addresses that were handed out and what each
page was last mapped to, and `PageMap` is its invariant: the pages handed out are windows opened
since the start, each pointing where it was last mapped to.

* **`kernel_pages_form_a_map`** — pages handed out are fresh, allocation fails exactly when all
  pages are present, a mapping is what is read back, and no assertion is reached.
-/

namespace Akaris

variable {ρ : Type} {K : KernelImage}

-- the rules are all that is used of it: computing it would run the program
attribute [local irreducible] Prog.wp

/-- A kernel address is translated through the entry of its page. -/
lemma i686KernelVirtToPhys_run {s : Machine ρ} {i o : ℕ} (hi : i < 2 ^ 18) (ho : o < 4096) :
    (i686KernelVirtToPhys K (window i + o)).run s =
      .ok (if Entry.present.get (kernelFlatpt K s.mem i) = 0 then .error .notpresent
        else .ok (Entry.physAddr.get (kernelFlatpt K s.mem i) <<< 12), s) := by
  rw [i686KernelVirtToPhys, Prog.run_bind_ok (i686VirtToPte_offset_run hi ho), Prog.run_bind_gets]
  split_ifs
  · rfl
  · rfl

/-! ## Runs -/

/-- A run: the machine, the addresses that `kernel_alloc` handed out, and what each of them was
last mapped to. -/
structure KernelRun (ρ : Type) where
  s : Machine ρ
  returned : List ℕ
  mapped : ℕ → Option ℕ

/-- One call.  Pages that were handed out are mapped, kernel addresses are translated. -/
inductive KernelStep (K : KernelImage) : KernelRun ρ → KernelRun ρ → Prop
  | alloc {r : KernelRun ρ} {a : ℕ} {s' : Machine ρ} :
      (i686KernelAlloc K 1).run r.s = .ok (.ok a, s') →
      KernelStep K r ⟨s', a :: r.returned, r.mapped⟩
  | allocFails {r : KernelRun ρ} {e : VirtmemError} {s' : Machine ρ} :
      (i686KernelAlloc K 1).run r.s = .ok (.error e, s') →
      KernelStep K r ⟨s', r.returned, r.mapped⟩
  | map {r : KernelRun ρ} {a p : ℕ} {res : Except VirtmemError Unit} {s' : Machine ρ} :
      a ∈ r.returned → p < 2 ^ 32 → (i686KernelMapVirtToPhys K p a).run r.s = .ok (res, s') →
      KernelStep K r ⟨s', r.returned, Function.update r.mapped a (some p)⟩
  | translate {r : KernelRun ρ} {a : ℕ} {res : Except VirtmemError ℕ} {s' : Machine ρ} :
      highstart ≤ a → a < 2 ^ 32 → (i686KernelVirtToPhys K a).run r.s = .ok (res, s') →
      KernelStep K r ⟨s', r.returned, r.mapped⟩
  | free {r : KernelRun ρ} {a : ℕ} {res : Except VirtmemError Unit} {s' : Machine ρ} :
      (i686KernelFree a).run r.s = .ok (res, s') →
      KernelStep K r ⟨s', r.returned, r.mapped⟩

/-- The states of the runs that start in `s₀`. -/
def KernelReachable (K : KernelImage) (s₀ : Machine ρ) : KernelRun ρ → Prop :=
  Reachable (fun r => r = ⟨s₀, [], fun _ => none⟩) (KernelStep K)

/-- **The invariant**: the pages handed out are the windows `W` opened since the start, and show
what they were last mapped to. -/
structure PageMap (K : KernelImage) (s₀ : Machine ρ) (W : Finset ℕ) (r : KernelRun ρ) : Prop where
  opens : Opens K W s₀ r.s
  returned : ∀ a, a ∈ r.returned ↔ ∃ i ∈ W, a = window i
  mapped : ∀ i p, r.mapped (window i) = some p →
    i ∈ W ∧ Entry.physAddr.get (kernelFlatpt K r.s.mem i) = p / 4096 % 2 ^ 20

section Runs

variable {s₀ : Machine ρ} {W : Finset ℕ} {r r' : KernelRun ρ} {a p : ℕ}

lemma PageMap.init (s₀ : Machine ρ) : PageMap K s₀ ∅ ⟨s₀, [], fun _ => none⟩ :=
  ⟨Opens.refl s₀, by simp, by simp⟩

/-- An allocation, as a step of the invariant. -/
lemma PageMap.alloc_wp (h : PageMap K s₀ W r) :
    Prog.wp (i686KernelAlloc K 1)
      (fun res s' =>
        (∃ i < 2 ^ 18, res = .ok (window i) ∧ i ∉ W ∧
          Entry.present.get (kernelFlatpt K r.s.mem i) = 0 ∧
          PageMap K s₀ (insert i W) ⟨s', window i :: r.returned, r.mapped⟩) ∨
        (res = .error .oom ∧ freeWindows K r.s.mem = 0 ∧ s' = r.s))
      (fun _ => False) r.s := by
  refine Prog.wp_mono (i686KernelAlloc_wp h.opens) ?_ fun _ he => he
  rintro res s' (⟨i, hres, hi, hopens, -, hkept⟩ | ⟨hres, hfull, hs⟩)
  · have hfresh := hopens.mem.fresh i (Finset.mem_insert_self i W)
    refine Or.inl ⟨i, hfresh.1, hres, hi, ?_, hopens, fun a => ?_, fun j p hp => ?_⟩
    · rw [h.opens.mem.other i hfresh.1 hi, hfresh.2]
    · simp only [List.mem_cons, h.returned, Finset.exists_mem_insert]
    · have hj := h.mapped j p hp
      have hne : j ≠ i := by
        rintro rfl
        exact hi hj.1
      refine ⟨Finset.mem_insert_of_mem hj.1, ?_⟩
      show Entry.physAddr.get (kernelFlatpt K s'.mem j) = _
      rw [hkept j hne, hj.2]
  · have hused := h.opens.mem.freeWindows
    exact Or.inr ⟨hres, by omega, hs⟩

/-- Mapping a page that was handed out, as a step of the invariant. -/
lemma PageMap.map_wp (h : PageMap K s₀ W r) {i : ℕ} (hi : i ∈ W) (p : ℕ) :
    Prog.wp (i686KernelMapVirtToPhys K p (window i))
      (fun res s' => res = .ok () ∧
        PageMap K s₀ W ⟨s', r.returned, Function.update r.mapped (window i) (some p)⟩ ∧
        ∀ j, j ≠ i → kernelFlatpt K s'.mem j = kernelFlatpt K r.s.mem j)
      (fun _ => False) r.s := by
  refine Prog.wp_mono (i686KernelMapVirtToPhys_wp h.opens hi p) ?_ fun _ he => he
  rintro res s' ⟨hres, hopens, hshows, hkept⟩
  refine ⟨hres, ⟨hopens, h.returned, fun j q hq => ?_⟩, hkept⟩
  by_cases hji : j = i
  · have hqp : p = q := by simpa [hji] using hq
    rw [hji]
    exact ⟨hi, hqp ▸ hshows.frame⟩
  · have hne : window j ≠ window i := fun heq => hji (window_inj heq)
    dsimp only at hq
    rw [Function.update_of_ne hne] at hq
    have hj := h.mapped j q hq
    refine ⟨hj.1, ?_⟩
    show Entry.physAddr.get (kernelFlatpt K s'.mem j) = _
    rw [hkept j hji, hj.2]

/-- Every call keeps the invariant. -/
lemma PageMap.step (h : PageMap K s₀ W r) (hs : KernelStep K r r') :
    ∃ W', PageMap K s₀ W' r' := by
  cases hs with
  | alloc hrun =>
      rcases Prog.wp_run h.alloc_wp hrun with ⟨i, -, hres, -, -, hnext⟩ | ⟨hres, -, -⟩
      · rw [Except.ok.injEq] at hres
        rw [hres]
        exact ⟨_, hnext⟩
      · exact absurd hres (by simp)
  | allocFails hrun =>
      rcases Prog.wp_run h.alloc_wp hrun with ⟨i, -, hres, -⟩ | ⟨-, -, rfl⟩
      · exact absurd hres (by simp)
      · exact ⟨W, h⟩
  | map ha hp hrun =>
      rcases (h.returned _).mp ha with ⟨i, hi, rfl⟩
      exact ⟨W, (Prog.wp_run (h.map_wp hi _) hrun).2.1⟩
  | translate hlo hhi hrun =>
      rcases exists_window hlo hhi with ⟨i, hi, o, ho, rfl⟩
      rw [i686KernelVirtToPhys_run hi ho, Except.ok.injEq, Prod.mk.injEq] at hrun
      rcases hrun with ⟨-, rfl⟩
      exact ⟨W, h⟩
  | free hrun =>
      rw [i686KernelFree, Prog.run_pure, Except.ok.injEq, Prod.mk.injEq] at hrun
      rcases hrun with ⟨-, rfl⟩
      exact ⟨W, h⟩

lemma KernelReachable.pageMap (hr : KernelReachable K s₀ r) : ∃ W, PageMap K s₀ W r := by
  refine Reachable.invariant (I := fun r => ∃ W, PageMap K s₀ W r) ?_ ?_ hr
  · rintro _ rfl
    exact ⟨∅, PageMap.init s₀⟩
  · rintro r r' ⟨W, h⟩ hs
    exact h.step hs

/-- All kernel pages are present exactly when no window is left. -/
lemma freeWindows_eq_zero_iff {mem : PhysMem} : freeWindows K mem = 0 ↔
    ∀ i < 2 ^ 18, Entry.present.get (kernelFlatpt K mem i) = 1 := by
  rw [freeWindows, Finset.card_eq_zero, Finset.filter_eq_empty_iff]
  refine forall_congr' fun i => ?_
  rw [Finset.mem_range]
  refine imp_congr_right fun _ => ?_
  have hcases := present_cases (kernelFlatpt K mem i)
  omega

/-- A page-aligned address that was stored in a page table entry is read back. -/
lemma shiftLeft_frame (hp : p < 2 ^ 32) (haligned : 4096 ∣ p) : (p / 4096 % 2 ^ 20) <<< 12 = p := by
  rw [Nat.shiftLeft_eq]
  omega

/-- **The kernel pages form a map**, in every state of every run from any content of the kernel
page tables: (a) `kernel_alloc` returns; its page is page-aligned, in the kernel half, was not
present, neither now nor at the start, and was not handed out before; (b) it fails exactly when all
pages are present, and then nothing has changed; (c) what a page was last mapped to is what
`kernel_virt_to_phys` returns; (d) mapping a page that was handed out succeeds and changes no other
page's translation; (e) the translation of every kernel address returns. -/
theorem kernel_pages_form_a_map (hr : KernelReachable K s₀ r) :
    (∃ res s', (i686KernelAlloc K 1).run r.s = .ok (res, s') ∧
      (∀ a, res = .ok a → ∃ i < 2 ^ 18, a = i * 4096 + 0xC0000000 ∧
        Entry.present.get (kernelFlatpt K r.s.mem i) = 0 ∧
        Entry.present.get (kernelFlatpt K s₀.mem i) = 0 ∧ a ∉ r.returned) ∧
      ((∃ e, res = .error e) ↔ ∀ i < 2 ^ 18, Entry.present.get (kernelFlatpt K r.s.mem i) = 1) ∧
      (∀ e, res = .error e → e = .oom ∧ s' = r.s)) ∧
    (∀ a p, r.mapped a = some p → a ∈ r.returned → p < 2 ^ 32 → 4096 ∣ p →
      (i686KernelVirtToPhys K a).run r.s = .ok (.ok p, r.s)) ∧
    (∀ a ∈ r.returned, ∀ p, ∃ s', (i686KernelMapVirtToPhys K p a).run r.s = .ok (.ok (), s') ∧
      ∀ b, highstart ≤ b → b < 2 ^ 32 → b / 4096 ≠ a / 4096 → ∃ res,
        (i686KernelVirtToPhys K b).run r.s = .ok (res, r.s) ∧
        (i686KernelVirtToPhys K b).run s' = .ok (res, s')) ∧
    (∀ a, highstart ≤ a → a < 2 ^ 32 → ∃ res,
      (i686KernelVirtToPhys K a).run r.s = .ok (res, r.s)) := by
  rcases hr.pageMap with ⟨W, h⟩
  refine ⟨?_, fun a p hmapped ha hp haligned => ?_, fun a ha p => ?_, fun a hlo hhi => ?_⟩
  · rcases Prog.wp_returns h.alloc_wp with
      ⟨res, s', hrun, ⟨i, hi, rfl, hW, h0, hnext⟩ | ⟨rfl, hfull, rfl⟩⟩
    · refine ⟨_, _, hrun, fun a ha => ?_, ?_, fun e he => by simp at he⟩
      · rw [Except.ok.injEq] at ha
        refine ⟨i, hi, by rw [← ha, window, highstart], h0, ?_, fun hmem => ?_⟩
        · exact (hnext.opens.mem.fresh i (Finset.mem_insert_self i W)).2
        · rcases (h.returned a).mp hmem with ⟨j, hj, hja⟩
          exact hW (window_inj (ha.trans hja) ▸ hj)
      · refine ⟨fun he => by simp at he, fun hall => ?_⟩
        have h1 := hall i hi
        omega
    · refine ⟨_, _, hrun, fun a ha => by simp at ha, ?_, fun e he => ?_⟩
      · exact ⟨fun _ => freeWindows_eq_zero_iff.mp hfull, fun _ => ⟨_, rfl⟩⟩
      · rw [Except.error.injEq] at he
        exact ⟨he.symm, rfl⟩
  · rcases (h.returned a).mp ha with ⟨i, hi, rfl⟩
    have hshown := (h.mapped i p hmapped).2
    have hrun := i686KernelVirtToPhys_run (K := K) (s := r.s) (o := 0) (h.opens.mem.fresh i hi).1
      (by norm_num)
    rw [Nat.add_zero, h.opens.mem.opened i hi, if_neg one_ne_zero, hshown,
      shiftLeft_frame hp haligned] at hrun
    exact hrun
  · rcases (h.returned a).mp ha with ⟨i, hi, rfl⟩
    rcases Prog.wp_returns (h.map_wp hi p) with ⟨_, s', hrun, rfl, -, hkept⟩
    refine ⟨s', hrun, fun b hlo hhi hpage => ?_⟩
    rcases exists_window hlo hhi with ⟨j, hj, o, ho, rfl⟩
    have hji : j ≠ i := by
      rintro rfl
      refine hpage ?_
      unfold window highstart
      omega
    refine ⟨_, i686KernelVirtToPhys_run hj ho, ?_⟩
    rw [i686KernelVirtToPhys_run hj ho, hkept j hji]
  · rcases exists_window hlo hhi with ⟨i, hi, o, ho, rfl⟩
    exact ⟨_, i686KernelVirtToPhys_run hi ho⟩

/-- A run that allocates a page and maps it. -/
theorem kernel_pages_form_a_map_one : ∃ r : KernelRun Unit, r.returned = [0xC0000000] ∧
    KernelReachable smallImage smallMachine r ∧
    (i686KernelVirtToPhys smallImage 0xC0000000).run r.s = .ok (.ok 0x5000, r.s) := by
  have h₀ : KernelReachable smallImage smallMachine ⟨smallMachine, [], fun _ => none⟩ := .base rfl
  have h₁ := h₀.tail (.alloc (a := 0xC0000000) (Prog.run_after (by decide +kernel)))
  have h₂ := h₁.tail (.map (p := 0x5000) (List.mem_singleton_self _) (by norm_num)
    (Prog.run_after (a := Except.ok ()) (by decide +kernel)))
  exact ⟨_, rfl, h₂, (kernel_pages_form_a_map h₂).2.1 0xC0000000 0x5000 (by simp)
    (List.mem_singleton_self _) (by norm_num) (by norm_num)⟩

end Runs

end Akaris
