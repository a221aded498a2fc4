import Akaris.Interrupt.Defs

/-!
# What the processor reads in the kernel's tables

The entries are stored field by field, in the layout of the C structures; the processor reads the
same bytes in its own layout.  For every address of the stubs it finds what was meant.
`dataFault_iff`, `codeFault_iff` and `stackFault_iff` say of every selector whether it can be loaded.
-/

namespace Akaris

open Ia32

/-! ## Fields -/

section Fields

variable {n : ℕ} {f g : Field n} {x : ℕ} {fs : List (Field n × ℕ)}

lemma get_setFields_self : f.get (setFields ((f, x) :: fs)) = x % 2 ^ f.len :=
  Field.get_set_self f _ x

lemma get_setFields_of_disjoint (h : f.Disjoint g) :
    f.get (setFields ((g, x) :: fs)) = f.get (setFields fs) :=
  Field.get_set_of_disjoint h _ x

end Fields

/-! ## The interrupt table -/

section Gates

variable (entry : BitVec 32)

lemma gate_type : Gate.type.get (i686SetIdtEntry entry) = 14 := by
  show IdtEntry.type.get _ = 14
  simp (disch := decide) only [i686SetIdtEntry, get_setFields_self, get_setFields_of_disjoint]
  rfl

lemma gate_present : Gate.present.get (i686SetIdtEntry entry) = 1 := by
  show IdtEntry.present.get _ = 1
  simp (disch := decide) only [i686SetIdtEntry, get_setFields_self, get_setFields_of_disjoint]
  rfl

lemma gate_dpl : Gate.dpl.get (i686SetIdtEntry entry) = 0 := by
  show IdtEntry.dpl.get _ = 0
  simp (disch := decide) only [i686SetIdtEntry, get_setFields_self, get_setFields_of_disjoint]
  rfl

lemma gate_selector : Gate.selector.get (i686SetIdtEntry entry) = 8 := by
  show IdtEntry.segment.get _ = 8
  simp (disch := decide) only [i686SetIdtEntry, get_setFields_self, get_setFields_of_disjoint]
  rfl

/-- The two halves of the offset are put together again. -/
lemma gate_offset : Gate.offset (i686SetIdtEntry entry) = entry := by
  have hlow : Gate.offsetLow.get (i686SetIdtEntry entry) = entry.toNat % 2 ^ 16 := by
    show IdtEntry.offsetLow.get _ = _
    rw [i686SetIdtEntry, get_setFields_self]
    show (entry.toNat &&& (2 ^ 16 - 1)) % 2 ^ 16 = _
    rw [Nat.and_two_pow_sub_one_eq_mod, Nat.mod_mod]
  have hhigh : Gate.offsetHigh.get (i686SetIdtEntry entry) = entry.toNat / 2 ^ 16 := by
    show IdtEntry.offsetHigh.get _ = _
    rw [i686SetIdtEntry, get_setFields_of_disjoint (by decide), get_setFields_self]
    show (entry.toNat >>> 16) % 2 ^ 16 = _
    have := entry.isLt
    rw [Nat.shiftRight_eq_div_pow]
    omega
  rw [Gate.offset, hlow, hhigh, Nat.mod_add_div, BitVec.ofNat_toNat, BitVec.setWidth_eq]

end Gates

section Stores

variable {α β : Type} {k : α → ℕ} {v : α → β}

/-- A place that nothing was stored to. -/
lemma getElem?_foldl_set_of_notMem {n : ℕ} {ps : List α} {l : List β} (h : n ∉ ps.map k) :
    (ps.foldl (fun l p => l.set (k p) (v p)) l)[n]? = l[n]? := by
  induction ps generalizing l with
  | nil => rfl
  | cons p ps ih =>
      rw [List.map_cons, List.mem_cons, not_or] at h
      rw [List.foldl_cons, ih h.2, List.getElem?_set_ne (Ne.symm h.1)]

/-- A place that was stored to once. -/
lemma getElem?_foldl_set {p : α} {ps : List α} {l : List β} (hnodup : (ps.map k).Nodup)
    (hp : p ∈ ps) (hlt : k p < l.length) :
    (ps.foldl (fun l p => l.set (k p) (v p)) l)[k p]? = some (v p) := by
  induction ps generalizing l with
  | nil => exact absurd hp (by simp)
  | cons q ps ih =>
      rw [List.map_cons, List.nodup_cons] at hnodup
      rw [List.foldl_cons]
      rcases List.mem_cons.mp hp with rfl | hps
      · rw [getElem?_foldl_set_of_notMem hnodup.1, List.getElem?_set_self hlt]
      · exact ih hnodup.2 hps (by rwa [List.length_set])

end Stores

/-- The gate of a vector. -/
lemma idtEntries_lookup (S : Symbols) {n : ℕ} (hn : n < 21) :
    (idtEntries S)[n]? = some (i686SetIdtEntry (S.intHandler n)) := by
  have hmem : ∀ n < 21, ∃ p ∈ idtHandlers, p.1.vector = n ∧ p.2 = n := by decide
  rcases hmem n hn with ⟨p, hp, hkey, hval⟩
  have h := getElem?_foldl_set (k := fun p : I686Exception × ℕ => p.1.vector)
    (v := fun p => i686SetIdtEntry (S.intHandler p.2)) (l := List.replicate 256 0)
    (by decide : (idtHandlers.map fun p => p.1.vector).Nodup) hp
    (by show p.1.vector < _; rw [List.length_replicate]; omega)
  simp only [hkey, hval] at h
  exact h

/-- The other vectors have no gate. -/
lemma idtEntries_rest (S : Symbols) {n : ℕ} (hn : 21 ≤ n) (hn' : n < 256) :
    (idtEntries S)[n]? = some 0 := by
  have hkeys : ∀ p ∈ idtHandlers, p.1.vector < 21 := by decide
  have hnot : n ∉ idtHandlers.map fun p => p.1.vector := by
    intro h
    rcases List.mem_map.mp h with ⟨p, hp, hkey⟩
    have := hkeys p hp
    omega
  have h := getElem?_foldl_set_of_notMem (v := fun p => i686SetIdtEntry (S.intHandler p.2))
    (l := List.replicate 256 0) hnot
  rw [List.getElem?_replicate, if_pos hn'] at h
  exact h

lemma idtEntries_length (S : Symbols) : (idtEntries S).length = 256 := by
  have hlen : ∀ (ps : List (I686Exception × ℕ)) (l : List (BitVec 64)),
      (ps.foldl (fun idt p => idt.set p.1.vector (i686SetIdtEntry (S.intHandler p.2))) l).length
        = l.length := by
    intro ps
    induction ps with
    | nil => exact fun l => rfl
    | cons p ps ih => exact fun l => by rw [List.foldl_cons, ih, List.length_set]
  rw [idtEntries, hlen, List.length_replicate]

/-- The limit that is loaded, one too high, adds no gate. -/
lemma idt_withinLimit (S : Symbols) :
    withinLimit (256 * sizeofGdtEntry % 2 ^ 16) (idtEntries S) = idtEntries S := by
  refine List.take_of_length_le ?_
  rw [idtEntries_length]
  decide

/-! ## The descriptor table -/

/-- The limit that is loaded, one too high, adds no descriptor. -/
lemma gdt_withinLimit (tss : BitVec 32) :
    withinLimit (6 * sizeofGdtEntry % 2 ^ 16) (kernelGdt tss) = kernelGdt tss := by
  refine List.take_of_length_le ?_
  simp [kernelGdt, flatEntries, sizeofGdtEntry]

/-- The descriptors in front of that of the task state segment. -/
def flatDescriptors : List (BitVec 64) :=
  [0, 0x00CF9A000000FFFF, 0x00CF92000000FFFF, 0x00CFFA000000FFFF, 0x00CFF2000000FFFF]

lemma kernelGdt_eq (tss : BitVec 32) :
    kernelGdt tss = flatDescriptors ++ [(tssEntry tss).bits] := by
  have hflat : flatEntries.map I686GdtEntry.bits = flatDescriptors := by decide +kernel
  rw [kernelGdt, List.map_append, hflat, List.map_cons, List.map_nil]

lemma tssEntry_system (tss : BitVec 32) : Descriptor.system.get (tssEntry tss).bits = 0 := by
  show GdtEntry.system.get _ = 0
  simp (disch := decide) only [I686GdtEntry.bits, get_setFields_self, get_setFields_of_disjoint]
  rfl

/-! ## Which selectors can be loaded -/

lemma index_eq (x : BitVec 16) : Selector.index.get x = x.toNat / 8 := by
  show x.toNat >>> 3 % 2 ^ 13 = _
  have := x.isLt
  rw [Nat.shiftRight_eq_div_pow]
  omega

/-- A selector selects one of the flat descriptors, or nothing that is a segment. -/
lemma descriptor_cases (tss : BitVec 32) (x : BitVec 16) :
    x.toNat < 40 ∧ descriptor (kernelGdt tss) x = descriptor flatDescriptors x ∨
    40 ≤ x.toNat ∧ ∀ d, descriptor (kernelGdt tss) x = some d → Descriptor.system.get d = 0 := by
  have hidx := index_eq x
  rcases Nat.lt_or_ge x.toNat 40 with hlt | hge
  · refine Or.inl ⟨hlt, ?_⟩
    rw [descriptor, descriptor, kernelGdt_eq, List.getElem?_append_left]
    rw [hidx]
    show _ < 5
    omega
  · refine Or.inr ⟨hge, fun d hd => ?_⟩
    rw [descriptor] at hd
    split_ifs at hd
    rw [kernelGdt_eq, List.getElem?_append_right (by rw [hidx]; show 5 ≤ _; omega)] at hd
    have hlast := List.mem_of_getElem? hd
    rw [List.mem_singleton.mp hlast]
    exact tssEntry_system tss

/-- The selectors that a data segment register can hold at a privilege level. -/
def DataSelector (cpl : ℕ) (x : BitVec 16) : Prop :=
  x.toNat < 4 ∨ cpl = 0 ∧ (x = 0x08 ∨ x = 0x10) ∨ (0x18 ≤ x.toNat ∧ x.toNat < 0x1C) ∨
    (0x20 ≤ x.toNat ∧ x.toNat < 0x24)

instance (cpl : ℕ) (x : BitVec 16) : Decidable (DataSelector cpl x) :=
  inferInstanceAs (Decidable (_ ∨ _))

section Loads

variable (tss : BitVec 32) {cpl : ℕ} {x : BitVec 16} {e : Fault}

/-- No selector from 0x28 on is null. -/
lemma not_null (h : 40 ≤ x.toNat) : ¬Selector.IsNull x := by
  intro hnull
  have := hnull.1
  rw [index_eq] at this
  omega

/-- Which selectors a data segment register can be loaded with. -/
lemma dataFault_iff (hcpl : cpl < 4) :
    dataFault (kernelGdt tss) cpl x = none ↔ DataSelector cpl x := by
  rcases descriptor_cases tss x with ⟨hlt, heq⟩ | ⟨hge, hsys⟩
  · have hflat : dataFault (kernelGdt tss) cpl x = dataFault flatDescriptors cpl x := by
      rw [dataFault, heq]
      rfl
    have hall : ∀ x < 40, ∀ cpl < 4, dataFault flatDescriptors cpl (BitVec.ofNat 16 x) = none ↔
        DataSelector cpl (BitVec.ofNat 16 x) := by decide +kernel
    have h := hall x.toNat hlt cpl hcpl
    rwa [BitVec.ofNat_toNat, BitVec.setWidth_eq, ← hflat] at h
  · have hnot : ¬DataSelector cpl x := by
      rintro (h | ⟨-, rfl | rfl⟩ | h | h)
      · omega
      · exact absurd hge (by decide)
      · exact absurd hge (by decide)
      · omega
      · omega
    refine iff_of_false ?_ hnot
    rw [dataFault, if_neg (not_null hge)]
    cases hd : descriptor (kernelGdt tss) x with
    | none => simp
    | some d => simp [Descriptor.IsReadable, hsys d hd]

/-- Which code segments the kernel can return to. -/
lemma codeFault_iff : codeFault (kernelGdt tss) 0 x = none ↔ x = 0x08 ∨ x = 0x1B := by
  rcases descriptor_cases tss x with ⟨hlt, heq⟩ | ⟨hge, hsys⟩
  · have hflat : codeFault (kernelGdt tss) 0 x = codeFault flatDescriptors 0 x := by
      rw [codeFault, heq]
      rfl
    have hall : ∀ x < 40, codeFault flatDescriptors 0 (BitVec.ofNat 16 x) = none ↔
        BitVec.ofNat 16 x = 0x08 ∨ BitVec.ofNat 16 x = 0x1B := by decide +kernel
    have h := hall x.toNat hlt
    rwa [BitVec.ofNat_toNat, BitVec.setWidth_eq, ← hflat] at h
  · have hnot : ¬(x = 0x08 ∨ x = 0x1B) := by
      rintro (rfl | rfl) <;> exact absurd hge (by decide)
    refine iff_of_false ?_ hnot
    rw [codeFault, if_neg (not_null hge)]
    cases hd : descriptor (kernelGdt tss) x with
    | none => simp
    | some d => simp [Descriptor.IsCode, hsys d hd]

/-- Which stack segments can be loaded for user mode. -/
lemma stackFault_iff : stackFault (kernelGdt tss) e 3 x = none ↔ x = 0x23 := by
  rcases descriptor_cases tss x with ⟨hlt, heq⟩ | ⟨hge, hsys⟩
  · have hflat : stackFault (kernelGdt tss) e 3 x = stackFault flatDescriptors e 3 x := by
      rw [stackFault, heq]
      rfl
    have hall : ∀ x < 40, ∀ e ∈ [Fault.invalidTss, .notPresent, .stack, .generalProtection,
        .unmodelled], stackFault flatDescriptors e 3 (BitVec.ofNat 16 x) = none ↔
          BitVec.ofNat 16 x = 0x23 := by decide +kernel
    have h := hall x.toNat hlt e (by cases e <;> simp)
    rwa [BitVec.ofNat_toNat, BitVec.setWidth_eq, ← hflat] at h
  · have hnot : ¬x = 0x23 := by
      rintro rfl
      exact absurd hge (by decide)
    refine iff_of_false ?_ hnot
    rw [stackFault, if_neg (not_null hge)]
    cases hd : descriptor (kernelGdt tss) x with
    | none => simp
    | some d => simp [Descriptor.IsWritable, hsys d hd]

/-- The kernel's own stack segment. -/
lemma stackFault_kernel : stackFault (kernelGdt tss) e 0 0x10 = none := by
  rw [kernelGdt_eq]
  rfl

/-- The kernel's code segment can be entered through a gate from every level. -/
lemma gateFault_kernel : gateFault (kernelGdt tss) cpl 0x08 = none := by
  rw [kernelGdt_eq]
  rfl

lemma gateLevel_kernel : gateLevel (kernelGdt tss) cpl 0x08 = 0 := by
  rw [kernelGdt_eq]
  rfl

/-- A selector that is good for user mode stays when user mode is entered, any other is cleared. -/
lemma outerSeg_eq (hx : DataSelector 0 x) :
    outerSeg (kernelGdt tss) 3 x = if DataSelector 3 x then x else 0 := by
  have hlt : x.toNat < 40 := by
    rcases hx with h | ⟨-, rfl | rfl⟩ | h | h
    · omega
    · decide
    · decide
    · omega
    · omega
  rcases descriptor_cases tss x with ⟨-, heq⟩ | ⟨hge, -⟩
  · have hflat : outerSeg (kernelGdt tss) 3 x = outerSeg flatDescriptors 3 x := by
      rw [outerSeg, heq]
      rfl
    have hall : ∀ x < 40, DataSelector 0 (BitVec.ofNat 16 x) →
        outerSeg flatDescriptors 3 (BitVec.ofNat 16 x)
          = if DataSelector 3 (BitVec.ofNat 16 x) then BitVec.ofNat 16 x else 0 := by decide +kernel
    have h := hall x.toNat hlt
    rw [BitVec.ofNat_toNat, BitVec.setWidth_eq, ← hflat] at h
    exact h hx
  · omega

end Loads

end Akaris
