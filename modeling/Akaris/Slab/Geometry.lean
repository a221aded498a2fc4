import Akaris.Slab.Stock

/-!
# The layout of a slab

A slab of `size` bytes begins with its header and the slots of its free list, one more than it has
objects, and ends with the objects.  `Layout` says that both parts fit, and `kmem_initialize_slab`
computes the largest number of objects for which they do: **`slab_geometry`**.
-/

namespace Akaris

variable {ε σ : Type}

/-- A header, `n + 1` slots and `n` objects of `objsize` bytes fit into `size` bytes. -/
def Layout (size objsize n : ℕ) : Prop :=
  sizeofKmemSlab + sizeofPtr * (n + 1) + n * objsize ≤ size

section Geometry

variable {size objsize s n cur : ℕ}

/-- The objects lie one behind the other. -/
lemma fillFreelist_pairwise (hpos : 0 < objsize) (hend : cur + n * objsize ≤ 2 ^ 32) :
    (fillFreelist objsize n cur).Pairwise (Apart objsize) := by
  induction n generalizing cur with
  | zero => exact List.Pairwise.nil
  | succ n ih =>
      rw [Nat.succ_mul] at hend
      cases n with
      | zero => exact List.pairwise_singleton _ _
      | succ n =>
          have hmul : objsize ≤ (n + 1) * objsize := Nat.le_mul_of_pos_left _ (Nat.succ_pos _)
          have hwrap : wrap32 (cur + objsize) = cur + objsize := wrap32_of_lt (by omega)
          rw [fillFreelist, hwrap]
          refine List.pairwise_cons.mpr ⟨fun o ho => Or.inl ?_, ih (by omega)⟩
          rcases (mem_fillFreelist hpos (by omega)).mp ho with ⟨i, -, rfl⟩
          exact Nat.le_add_right _ _

/-- A size of which a slab of at least a page is computed to hold an object does fit. -/
lemma fits_of_nElements_pos (hsize : 4096 ≤ size) (hsize' : size < 2 ^ 31) (hpos : objsize ≠ 0)
    (hobj : objsize + 4 < 2 ^ 32) (hn : 0 < nElements size objsize) : Fits size objsize := by
  refine ⟨Nat.pos_of_ne_zero hpos, ?_, hsize'⟩
  have hheader : sub32 (sub32 size 16) 4 = size - 20 := by
    rw [sub32_of_le (a := size) (by omega) (by omega), sub32_of_le (by omega) (by omega)]
    omega
  simp only [nElements, sizeofKmemSlab, sizeofPtr, hheader, wrap32_of_lt hobj] at hn ⊢
  have hle := (Nat.div_pos_iff.mp hn).2
  omega

/-- **No more objects fit** than are computed. -/
lemma Fits.isGreatest_layout (h : Fits size objsize) :
    IsGreatest { m | Layout size objsize m } (nElements size objsize) := by
  have hone := h.one
  simp only [sizeofKmemSlab, sizeofPtr] at hone
  have hcount : ∀ m, Layout size objsize m ↔ m ≤ (size - 20) / (objsize + 4) := by
    intro m
    rw [Nat.le_div_iff_mul_le (by omega), Nat.mul_add, Layout, sizeofKmemSlab, sizeofPtr]
    omega
  have hn : nElements size objsize = (size - 20) / (objsize + 4) := by
    rw [h.nElements_eq, Nat.sub_sub]
    rfl
  rw [hn]
  exact ⟨(hcount _).mpr le_rfl, fun m hm => (hcount m).mp hm⟩

end Geometry

/-- The assertions of `kmem_initialize_slab` hold when the number of elements is positive, and the
slab it sets up lists the objects. -/
lemma kmemInitializeSlab_wp_of_pos {k : Kmem ε σ} {s size : ℕ} (hs : s ≠ 0)
    (hpages : (k.slab s).nPages ≠ 0) (hobj : k.cache.objsize ≠ 0)
    (hsize : wrap32 ((k.slab s).nPages * k.cache.cpu.physmemPageSize) = size)
    (hslot : wrap32 (k.cache.objsize + sizeofPtr) ≠ 0)
    (hn : 0 < nElements size k.cache.objsize ∧ nElements size k.cache.objsize < 2 ^ 31) :
    Prog.wp (kmemInitializeSlab s)
      (fun _ k' => k' = k.setSlab s { k.slab s with
        numTotal := nElements size k.cache.objsize
        firstFree := 0
        freelist := slabObjects size k.cache.objsize s ++ [0] })
      (fun _ => False) k := by
  simp only [kmemInitializeSlab, Prog.wp_bind, Prog.wp_gets, Prog.wp_assert, Prog.wp_update, hsize]
  exact ⟨fun _ => ⟨fun _ => ⟨fun _ => ⟨fun _ => ⟨fun _ => rfl, absurd hn⟩, absurd hslot⟩,
    absurd hobj⟩, absurd hpages⟩, absurd hs⟩

/-- **Slab geometry.**  The `n > 0` objects that `kmem_initialize_slab` lists for the slab at `s`,
with pages of 4096 bytes, are pairwise disjoint, lie behind the header and the `n + 1` slots of the
free list and before the end of the slab, and `n` is the largest number for which there is room. -/
theorem slab_geometry {k : Kmem ε σ} {s : ℕ} (hc : k.cache.cpu.physmemPageSize = 4096)
    (hpages : (k.slab s).nPages ≠ 0) (hsize : (k.slab s).nPages * 4096 < 2 ^ 31)
    (hs : Placed ((k.slab s).nPages * 4096) s) (hobj : k.cache.objsize ≠ 0)
    (hobj' : k.cache.objsize + 4 < 2 ^ 32)
    (hn : 0 < nElements ((k.slab s).nPages * 4096) k.cache.objsize) :
    ∃ k' objs, (kmemInitializeSlab s).run k = .ok ((), k') ∧
      (k'.slab s).freelist = objs ++ [0] ∧ objs.length = (k'.slab s).numTotal ∧
      objs.Pairwise (Apart k.cache.objsize) ∧
      (∀ o ∈ objs, s + sizeofKmemSlab + sizeofPtr * ((k'.slab s).numTotal + 1) ≤ o ∧
        o + k.cache.objsize ≤ s + (k.slab s).nPages * 4096) ∧
      IsGreatest { m | Layout ((k.slab s).nPages * 4096) k.cache.objsize m }
        (k'.slab s).numTotal := by
  obtain ⟨size, hdef⟩ : ∃ size, (k.slab s).nPages * 4096 = size := ⟨_, rfl⟩
  rw [hdef] at hsize hs hn ⊢
  have hfit : Fits size k.cache.objsize :=
    fits_of_nElements_pos (by omega) hsize hobj hobj' hn
  have hwrap : wrap32 ((k.slab s).nPages * k.cache.cpu.physmemPageSize) = size := by
    rw [hc, hdef]
    exact wrap32_of_lt (by omega)
  have hslot : wrap32 (k.cache.objsize + sizeofPtr) ≠ 0 := by
    rw [sizeofPtr, wrap32_of_lt hobj']
    omega
  rcases Prog.wp_returns (kmemInitializeSlab_wp_of_pos hs.1 hpages hobj hwrap hslot
    ⟨hn, hfit.nElements_lt⟩) with ⟨_, k', hrun, rfl⟩
  refine ⟨_, slabObjects size k.cache.objsize s, hrun, ?_⟩
  rw [Kmem.setSlab_slab, Function.update_self]
  refine ⟨rfl, fillFreelist_length _ _ _, ?_, fun o ho => slabObjects_within hfit hs ho,
    hfit.isGreatest_layout⟩
  exact fillFreelist_pairwise hfit.pos (hfit.firstObj_eq hs ▸ hs.2)

/-- A slab of two pages for objects of 100 bytes. -/
theorem slab_geometry_two_pages : ∃ k : Kmem Empty ℕ, ∃ k' objs,
    (kmemInitializeSlab 4096).run k = .ok ((), k') ∧
      (k'.slab 4096).freelist = objs ++ [0] ∧ objs.length = (k'.slab 4096).numTotal := by
  let k : Kmem Empty ℕ := {
    cache := {
      objsize := 100, used := 0, cpu := pageByPage
      slabsFull := [], slabsPartial := [], slabsEmpty := []
      ctor := none, dtor := none }
    slab := fun _ => ⟨0, 2, 0, []⟩
    env := 1 }
  rcases slab_geometry (k := k) (s := 4096) rfl (by decide) (by decide) ⟨by decide, by decide⟩
    (by decide) (by decide) (by decide +kernel) with ⟨k', objs, hrun, hlist, hlen, -⟩
  exact ⟨k, k', objs, hrun, hlist, hlen⟩

end Akaris
