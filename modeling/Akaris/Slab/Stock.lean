import Akaris.Slab.Defs
import Akaris.Lib.Shelves

/-!
# The objects of a slab cache

The part of the slab invariant that does not care which list a slab is on.

**Geometry.**  `mem_slabObjects` says where the objects of a slab lie: behind its header and free
list and before its end, at multiples of the object size.

**One slab.**  `SlabOk` is a well formed slab header.  Its free slots behave like a stack,
`SlabOk.take` and `SlabOk.put`; nothing ties the objects in them to the slab.

**All slabs.**  `Stock` is the global accounting: what is outstanding and what lies in the free
slots of all slabs together is exactly all objects of all slabs.  Because `kmem_cache_free` stores
an object wherever it likes, nothing stronger is true of a single slab.
-/

namespace Akaris

/-! ## Geometry -/

/-- The objects of the slab at `s`. -/
def slabObjects (size objsize s : ℕ) : List ℕ :=
  fillFreelist objsize (nElements size objsize) (firstObj s size objsize (nElements size objsize))

/-- A slab at `s` of `size` bytes lies in the address space. -/
def Placed (size s : ℕ) : Prop := s ≠ 0 ∧ s + size ≤ 2 ^ 32

/-- Two slabs of `size` bytes share no byte. -/
def Apart (size s t : ℕ) : Prop := s + size ≤ t ∨ t + size ≤ s

section Geometry

variable {size objsize s : ℕ}

@[simp] lemma fillFreelist_length (objsize n cur : ℕ) :
    (fillFreelist objsize n cur).length = n := by
  induction n generalizing cur with
  | zero => rfl
  | succ n ih => simp [fillFreelist, ih]

/-- The loop lists an arithmetic progression, as long as it does not leave the address space. -/
lemma mem_fillFreelist {n cur : ℕ} (hpos : 0 < objsize) (hend : cur + n * objsize ≤ 2 ^ 32)
    {o : ℕ} : o ∈ fillFreelist objsize n cur ↔ ∃ i < n, o = cur + i * objsize := by
  induction n generalizing cur with
  | zero => simp [fillFreelist]
  | succ n ih =>
      rw [Nat.succ_mul] at hend
      cases n with
      | zero => simp [fillFreelist]
      | succ n =>
          have hmul : objsize ≤ (n + 1) * objsize := Nat.le_mul_of_pos_left _ (Nat.succ_pos _)
          have hwrap : wrap32 (cur + objsize) = cur + objsize := wrap32_of_lt (by omega)
          rw [fillFreelist, List.mem_cons, hwrap, ih (by omega)]
          constructor
          · rintro (rfl | ⟨i, hi, rfl⟩)
            · exact ⟨0, by omega, by simp⟩
            · exact ⟨i + 1, by omega, by ring⟩
          · rintro ⟨i, hi, rfl⟩
            cases i with
            | zero => exact Or.inl (by simp)
            | succ i => exact Or.inr ⟨i, by omega, by ring⟩

lemma fillFreelist_nodup {n cur : ℕ} (hpos : 0 < objsize) (hend : cur + n * objsize ≤ 2 ^ 32) :
    (fillFreelist objsize n cur).Nodup := by
  induction n generalizing cur with
  | zero => exact List.nodup_nil
  | succ n ih =>
      rw [Nat.succ_mul] at hend
      cases n with
      | zero => simp [fillFreelist]
      | succ n =>
          have hmul : objsize ≤ (n + 1) * objsize := Nat.le_mul_of_pos_left _ (Nat.succ_pos _)
          have hwrap : wrap32 (cur + objsize) = cur + objsize := wrap32_of_lt (by omega)
          rw [fillFreelist, hwrap]
          refine List.nodup_cons.mpr ⟨?_, ih (by omega)⟩
          rw [mem_fillFreelist hpos (by omega)]
          rintro ⟨i, -, hi⟩
          omega

/-- An object size of which a slab of `size` bytes holds one object. -/
structure Fits (size objsize : ℕ) : Prop where
  pos : 0 < objsize
  one : sizeofKmemSlab + 2 * sizeofPtr + objsize ≤ size
  size_lt : size < 2 ^ 31

lemma Fits.nElements_eq (h : Fits size objsize) :
    nElements size objsize = (size - sizeofKmemSlab - sizeofPtr) / (objsize + sizeofPtr) := by
  have h1 := h.one
  have h2 := h.size_lt
  simp only [sizeofKmemSlab, sizeofPtr] at h1
  have hheader : sub32 size 16 = size - 16 := sub32_of_le (by omega) (by omega)
  simp only [nElements, sizeofKmemSlab, sizeofPtr]
  rw [hheader, sub32_of_le (by omega) (by omega), wrap32_of_lt (by omega)]

lemma Fits.nElements_pos (h : Fits size objsize) : 0 < nElements size objsize := by
  have h1 := h.one
  rw [h.nElements_eq]
  simp only [sizeofKmemSlab, sizeofPtr] at h1 ⊢
  exact Nat.div_pos (by omega) (by omega)

/-- Header, free list and objects fit. -/
lemma Fits.layout (h : Fits size objsize) :
    sizeofKmemSlab + sizeofPtr * (nElements size objsize + 1)
      + nElements size objsize * objsize ≤ size := by
  have h1 := h.one
  have hdiv := Nat.div_mul_le_self (size - sizeofKmemSlab - sizeofPtr) (objsize + sizeofPtr)
  rw [← h.nElements_eq, Nat.mul_add] at hdiv
  simp only [sizeofKmemSlab, sizeofPtr] at h1 hdiv ⊢
  omega

lemma Fits.nElements_lt (h : Fits size objsize) : nElements size objsize < 2 ^ 31 := by
  have h1 := h.layout
  have h2 := h.size_lt
  simp only [sizeofKmemSlab, sizeofPtr] at h1
  omega

/-- The objects end where the slab ends. -/
lemma Fits.firstObj_eq (h : Fits size objsize) (hs : Placed size s) :
    firstObj s size objsize (nElements size objsize) + nElements size objsize * objsize
      = s + size := by
  have h1 := h.layout
  have h2 := h.size_lt
  have h3 : 0 < nElements size objsize * objsize := Nat.mul_pos h.nElements_pos h.pos
  obtain ⟨-, hend⟩ := hs
  simp only [sizeofKmemSlab, sizeofPtr] at h1
  rw [firstObj, Nat.mul_comm objsize, wrap32_of_lt (n := nElements size objsize * objsize) (by omega)]
  simp only [sub32, wrap32]
  omega

/-- Where the objects of a slab lie. -/
lemma mem_slabObjects (h : Fits size objsize) (hs : Placed size s) {o : ℕ} :
    o ∈ slabObjects size objsize s ↔
      ∃ i < nElements size objsize,
        o + nElements size objsize * objsize = s + size + i * objsize := by
  have hfirst := h.firstObj_eq hs
  rw [slabObjects, mem_fillFreelist h.pos (hfirst ▸ hs.2)]
  refine exists_congr fun i => and_congr_right fun _ => ?_
  omega

lemma slabObjects_nodup (h : Fits size objsize) (hs : Placed size s) :
    (slabObjects size objsize s).Nodup :=
  fillFreelist_nodup h.pos (h.firstObj_eq hs ▸ hs.2)

/-- An object lies within its slab, behind the header and the free list. -/
lemma slabObjects_within (h : Fits size objsize) (hs : Placed size s) {o : ℕ}
    (ho : o ∈ slabObjects size objsize s) :
    s + sizeofKmemSlab + sizeofPtr * (nElements size objsize + 1) ≤ o ∧
      o + objsize ≤ s + size := by
  obtain ⟨i, hi, heq⟩ := (mem_slabObjects h hs).mp ho
  have hlayout := h.layout
  have hle : (i + 1) * objsize ≤ nElements size objsize * objsize := Nat.mul_le_mul_right _ hi
  rw [Nat.succ_mul] at hle
  omega

end Geometry

/-! ## One slab -/

/-- The free slots of a slab: the entries from `first_free` on, before the terminating `NULL`. -/
def freeSlots (slab : KmemSlab) : List ℕ :=
  (slab.freelist.drop slab.firstFree).takeWhile (· ≠ 0)

/-- A slab header with `n` slots and a terminated free list. -/
structure SlabOk (n : ℕ) (slab : KmemSlab) : Prop where
  numTotal : slab.numTotal = n
  freelist : ∃ xs, slab.freelist = xs ++ [0] ∧ xs.length = n ∧ ∀ x ∈ xs, x ≠ 0
  firstFree : slab.firstFree ≤ n

section OneSlab

variable {n : ℕ} {v : KmemSlab}

lemma takeWhile_ne_zero {xs : List ℕ} (h : ∀ x ∈ xs, x ≠ 0) :
    (xs ++ [0]).takeWhile (fun x => decide (x ≠ 0)) = xs := by
  rw [List.takeWhile_append_of_pos (by simpa using h)]
  simp

lemma freeSlots_eq {xs : List ℕ} (hxs : v.freelist = xs ++ [0]) (hne : ∀ x ∈ xs, x ≠ 0)
    (hle : v.firstFree ≤ xs.length) : freeSlots v = xs.drop v.firstFree := by
  rw [freeSlots, hxs, List.drop_append_of_le_length hle]
  exact takeWhile_ne_zero fun x hx => hne x (List.mem_of_mem_drop hx)

/-- A well formed slab has as many free slots as lie between `first_free` and the end. -/
lemma SlabOk.freeSlots_length (h : SlabOk n v) :
    (freeSlots v).length = n - v.firstFree := by
  obtain ⟨xs, hxs, hlen, hne⟩ := h.freelist
  rw [freeSlots_eq hxs hne (hlen ▸ h.firstFree), List.length_drop, hlen]

/-- Taking an object: it is the first free one, and the entry behind it is the terminator exactly
when it was the last. -/
lemma SlabOk.take (h : SlabOk n v) (hlt : v.firstFree < n) :
    ∃ obj next, v.freelist[v.firstFree]? = some obj ∧ obj ≠ 0 ∧
      v.freelist[v.firstFree + 1]? = some next ∧ (next = 0 ↔ v.firstFree + 1 = n) ∧
      freeSlots v = obj :: freeSlots { v with firstFree := v.firstFree + 1 } ∧
      SlabOk n { v with firstFree := v.firstFree + 1 } := by
  obtain ⟨xs, hxs, hlen, hne⟩ := h.freelist
  have hlt' : v.firstFree < xs.length := hlen ▸ hlt
  have hobj : xs[v.firstFree] ≠ 0 := hne _ (List.getElem_mem _)
  have hslots : freeSlots v
      = xs[v.firstFree] :: freeSlots { v with firstFree := v.firstFree + 1 } := by
    rw [freeSlots_eq hxs hne hlt'.le,
      freeSlots_eq (v := { v with firstFree := v.firstFree + 1 }) hxs hne hlt',
      List.drop_eq_getElem_cons hlt']
  have hok : SlabOk n { v with firstFree := v.firstFree + 1 } :=
    ⟨h.numTotal, ⟨xs, hxs, hlen, hne⟩, hlt⟩
  have hget : v.freelist[v.firstFree]? = some xs[v.firstFree] := by
    rw [hxs, List.getElem?_append_left hlt', List.getElem?_eq_getElem hlt']
  by_cases hlast : v.firstFree + 1 = n
  · refine ⟨_, 0, hget, hobj, ?_, by simp [hlast], hslots, hok⟩
    rw [hxs, List.getElem?_append_right (by omega), hlen, hlast]
    simp
  · have hnext : v.firstFree + 1 < xs.length := by omega
    refine ⟨_, xs[v.firstFree + 1], hget, hobj, ?_, ?_, hslots, hok⟩
    · rw [hxs, List.getElem?_append_left hnext, List.getElem?_eq_getElem hnext]
    · have hne' : xs[v.firstFree + 1] ≠ 0 := hne _ (List.getElem_mem _)
      simp [hne', hlast]

/-- Putting an object back: it becomes the first free one. -/
lemma SlabOk.put (h : SlabOk n v) {i obj : ℕ} (hi : v.firstFree = i + 1) (hobj : obj ≠ 0) :
    freeSlots { v with firstFree := i, freelist := v.freelist.set i obj }
        = obj :: freeSlots v ∧
      SlabOk n { v with firstFree := i, freelist := v.freelist.set i obj } := by
  obtain ⟨xs, hxs, hlen, hne⟩ := h.freelist
  have hlt : i < xs.length := by
    have := h.firstFree
    omega
  have hset : v.freelist.set i obj = xs.set i obj ++ [0] := by
    rw [hxs, List.set_append_left _ _ hlt]
  have hne' : ∀ x ∈ xs.set i obj, x ≠ 0 := by
    intro x hx
    rcases List.mem_or_eq_of_mem_set hx with hx | rfl
    · exact hne x hx
    · exact hobj
  have hlen' : (xs.set i obj).length = n := by rw [List.length_set, hlen]
  refine ⟨?_, ⟨h.numTotal, ⟨_, hset, hlen', hne'⟩, by simp only; omega⟩⟩
  rw [freeSlots_eq (v := { v with firstFree := i, freelist := v.freelist.set i obj }) hset
      hne' (by simp only; omega),
    freeSlots_eq hxs hne (by omega), hi, List.drop_eq_getElem_cons (by simpa using hlt)]
  simp [List.drop_set_of_lt]

/-- A slab that was just set up has all its objects in its free slots. -/
lemma SlabOk.new {xs : List ℕ} (hne : ∀ x ∈ xs, x ≠ 0) (hfree : v.freelist = xs ++ [0])
    (htotal : v.numTotal = xs.length) (hfirst : v.firstFree = 0) :
    freeSlots v = xs ∧ SlabOk xs.length v := by
  refine ⟨?_, ⟨htotal, ⟨xs, hfree, rfl, hne⟩, by omega⟩⟩
  rw [freeSlots_eq hfree hne (by omega), hfirst, List.drop_zero]

end OneSlab

/-! ## All slabs -/

/-- **The global accounting** over the slabs `pg` with the objects `out` outstanding.  When the
cache is `tidy`, what is free on a slab also lies on that slab. -/
structure Stock (tidy : Prop) (size objsize : ℕ) (pg out : List ℕ) (slab : ℕ → KmemSlab) :
    Prop where
  placed : ∀ s ∈ pg, Placed size s
  apart : pg.Pairwise (Apart size)
  ok : ∀ s ∈ pg, SlabOk (nElements size objsize) (slab s)
  objects : (out ++ pg.flatMap fun s => freeSlots (slab s)).Perm
    (pg.flatMap (slabObjects size objsize))
  home : tidy → ∀ s ∈ pg, ∀ o ∈ freeSlots (slab s), o ∈ slabObjects size objsize s

section Stock

variable {tidy : Prop} {size objsize : ℕ} {pg out : List ℕ} {slab : ℕ → KmemSlab} {s t obj : ℕ}

lemma freeSlots_update (s : ℕ) (v : KmemSlab) : (fun t => freeSlots (Function.update slab s v t))
    = Function.update (fun t => freeSlots (slab t)) s (freeSlots v) := by
  funext t
  by_cases h : t = s
  · subst h
    simp
  · simp [h]

instance : Std.Symm (Apart size) := ⟨fun _ _ => Or.symm⟩

lemma Stock.apart_of_ne (h : Stock tidy size objsize pg out slab) (hs : s ∈ pg) (ht : t ∈ pg)
    (hst : s ≠ t) : Apart size s t :=
  h.apart.forall hs ht hst

lemma Stock.nodup (hfit : Fits size objsize) (h : Stock tidy size objsize pg out slab) : pg.Nodup := by
  have h1 := hfit.one
  refine h.apart.imp fun {a b} hab => ?_
  rintro rfl
  simp only [sizeofKmemSlab] at h1
  rcases hab with hab | hab <;> omega

/-- The objects of all slabs are all different. -/
lemma Stock.objects_nodup (hfit : Fits size objsize) (h : Stock tidy size objsize pg out slab) :
    (pg.flatMap (slabObjects size objsize)).Nodup := by
  rw [List.nodup_flatMap]
  refine ⟨fun s hs => slabObjects_nodup hfit (h.placed s hs), ?_⟩
  refine h.apart.imp_of_mem fun {s t} hs ht hst o hos hot => ?_
  have h1 := slabObjects_within hfit (h.placed s hs) hos
  have h2 := slabObjects_within hfit (h.placed t ht) hot
  have h3 := hfit.pos
  rcases hst with hst | hst <;> omega

/-- An object lies on the slab whose page it is in. -/
lemma Stock.mem_slabObjects_of_page (hfit : Fits size objsize)
    (h : Stock tidy size objsize pg out slab) (hs : s ∈ pg)
    (hobj : obj ∈ pg.flatMap (slabObjects size objsize)) (hpage : s ≤ obj ∧ obj < s + size) :
    obj ∈ slabObjects size objsize s := by
  obtain ⟨t, ht, hobj⟩ := List.mem_flatMap.mp hobj
  by_cases hst : s = t
  · exact hst ▸ hobj
  · have hwithin := slabObjects_within hfit (h.placed t ht) hobj
    have hpos := hfit.pos
    rcases h.apart_of_ne hs ht hst with hap | hap <;> omega

lemma Stock.mem_objects (h : Stock tidy size objsize pg out slab) (hobj : obj ∈ out) :
    obj ∈ pg.flatMap (slabObjects size objsize) :=
  h.objects.mem_iff.mp (List.mem_append_left _ hobj)

/-- An object is an address other than `NULL`. -/
lemma Stock.object_range (hfit : Fits size objsize) (h : Stock tidy size objsize pg out slab)
    (hobj : obj ∈ pg.flatMap (slabObjects size objsize)) : 0 < obj ∧ obj < 2 ^ 32 := by
  obtain ⟨s, hs, hobj⟩ := List.mem_flatMap.mp hobj
  have hwithin := slabObjects_within hfit (h.placed s hs) hobj
  have hpos := hfit.pos
  obtain ⟨hne, hend⟩ := h.placed s hs
  omega

lemma Stock.nodup_all (hfit : Fits size objsize) (h : Stock tidy size objsize pg out slab) :
    (out ++ pg.flatMap fun s => freeSlots (slab s)).Nodup :=
  h.objects.nodup_iff.mpr (h.objects_nodup hfit)

lemma Stock.out_nodup (hfit : Fits size objsize) (h : Stock tidy size objsize pg out slab) :
    out.Nodup :=
  (h.nodup_all hfit).sublist (List.sublist_append_left _ _)

/-- What is in a free slot is not outstanding. -/
lemma Stock.not_out (hfit : Fits size objsize) (h : Stock tidy size objsize pg out slab) (hs : s ∈ pg)
    (hobj : obj ∈ freeSlots (slab s)) : obj ∉ out := fun hout =>
  List.disjoint_of_nodup_append (h.nodup_all hfit) hout (List.mem_flatMap.mpr ⟨s, hs, hobj⟩)

/-- There are fewer outstanding objects than addresses. -/
lemma Stock.out_length_lt (hfit : Fits size objsize) (h : Stock tidy size objsize pg out slab) :
    out.length < 2 ^ 32 := by
  have hsub : out.toFinset ⊆ Finset.Ico 1 (2 ^ 32) := by
    intro o ho
    have hrange := h.object_range hfit (h.mem_objects (List.mem_toFinset.mp ho))
    exact Finset.mem_Ico.mpr ⟨hrange.1, hrange.2⟩
  have hcard := Finset.card_le_card hsub
  rw [List.toFinset_card_of_nodup (h.out_nodup hfit), Nat.card_Ico] at hcard
  omega

/-- The outstanding objects are counted by the `first_free` indices. -/
lemma Stock.out_length (h : Stock tidy size objsize pg out slab) :
    out.length = (pg.map fun s => (slab s).firstFree).sum := by
  have hlen := h.objects.length_eq
  have hsum : ∀ l : List ℕ, (∀ s ∈ l, SlabOk (nElements size objsize) (slab s)) →
      (l.flatMap fun s => freeSlots (slab s)).length + (l.map fun s => (slab s).firstFree).sum
        = (l.flatMap (slabObjects size objsize)).length := by
    intro l
    induction l with
    | nil => intro _; rfl
    | cons s l ih =>
        intro hok
        have hs := hok s List.mem_cons_self
        have hfree := hs.freeSlots_length
        have hle := hs.firstFree
        have hrec := ih fun t ht => hok t (List.mem_cons_of_mem _ ht)
        simp only [List.flatMap_cons, List.length_append, List.map_cons, List.sum_cons,
          slabObjects, fillFreelist_length] at hrec ⊢
        omega
  have htotal := hsum pg h.ok
  rw [List.length_append] at hlen
  omega

lemma Stock.ok_update (h : Stock tidy size objsize pg out slab) {v : KmemSlab}
    (hv : SlabOk (nElements size objsize) v) :
    ∀ t ∈ pg, SlabOk (nElements size objsize) (Function.update slab s v t) := by
  intro t ht
  by_cases hts : t = s
  · subst hts
    rwa [Function.update_self]
  · rw [Function.update_of_ne hts]
    exact h.ok t ht

/-- Changing one slab of a tidy cache. -/
lemma Stock.home_update (h : Stock tidy size objsize pg out slab) {v : KmemSlab}
    (hv : tidy → ∀ o ∈ freeSlots v, o ∈ slabObjects size objsize s) :
    tidy → ∀ t ∈ pg, ∀ o ∈ freeSlots (Function.update slab s v t),
      o ∈ slabObjects size objsize t := by
  intro htidy t ht o ho
  by_cases hts : t = s
  · subst hts
    rw [Function.update_self] at ho
    exact hv htidy o ho
  · rw [Function.update_of_ne hts] at ho
    exact h.home htidy t ht o ho

/-- **Taking an object of a slab makes it outstanding.** -/
lemma Stock.take (hfit : Fits size objsize) (h : Stock tidy size objsize pg out slab) (hs : s ∈ pg)
    {v : KmemSlab} (hv : SlabOk (nElements size objsize) v)
    (hslots : freeSlots (slab s) = obj :: freeSlots v) :
    Stock tidy size objsize pg (obj :: out) (Function.update slab s v) where
  placed := h.placed
  apart := h.apart
  ok := h.ok_update hv
  objects := by
    rw [freeSlots_update]
    have htake := flatMap_take (f := fun t => freeSlots (slab t)) (h.nodup hfit) hs hslots
    refine List.Perm.trans ?_ h.objects
    exact List.perm_middle.symm.trans (htake.symm.append_left out)
  home := h.home_update fun htidy o ho =>
    h.home htidy s hs o (hslots ▸ List.mem_cons_of_mem _ ho)

/-- **Putting an outstanding object back**, on whatever slab when the cache need not be tidy. -/
lemma Stock.put (hfit : Fits size objsize) (h : Stock tidy size objsize pg out slab) (hs : s ∈ pg)
    (hobj : obj ∈ out) (hpage : tidy → s ≤ obj ∧ obj < s + size) {v : KmemSlab}
    (hv : SlabOk (nElements size objsize) v)
    (hslots : freeSlots v = obj :: freeSlots (slab s)) :
    Stock tidy size objsize pg (out.erase obj) (Function.update slab s v) where
  placed := h.placed
  apart := h.apart
  ok := h.ok_update hv
  objects := by
    rw [freeSlots_update, hslots]
    have hput := flatMap_put (f := fun t => freeSlots (slab t)) (h.nodup hfit) hs obj
    refine ((hput.append_left (out.erase obj)).trans ?_).trans h.objects
    refine List.perm_middle.trans ?_
    exact (List.perm_cons_erase hobj).symm.append_right _
  home := h.home_update fun htidy o ho => by
    rcases List.mem_cons.mp (hslots ▸ ho) with rfl | ho
    · exact h.mem_slabObjects_of_page hfit hs (h.mem_objects hobj) (hpage htidy)
    · exact h.home htidy s hs o ho

/-- **A new slab brings its objects with it.** -/
lemma Stock.add (hfit : Fits size objsize) (h : Stock tidy size objsize pg out slab)
    (hplaced : Placed size s) (hapart : ∀ t ∈ pg, Apart size s t) {v : KmemSlab}
    (hv : SlabOk (nElements size objsize) v)
    (hslots : freeSlots v = slabObjects size objsize s) :
    Stock tidy size objsize (s :: pg) out (Function.update slab s v) where
  placed := List.forall_mem_cons.mpr ⟨hplaced, h.placed⟩
  apart := List.pairwise_cons.mpr ⟨hapart, h.apart⟩
  ok := List.forall_mem_cons.mpr ⟨by rwa [Function.update_self], h.ok_update hv⟩
  objects := by
    have hs : s ∉ pg := by
      intro hs
      have h1 := hfit.one
      simp only [sizeofKmemSlab] at h1
      rcases hapart s hs with hap | hap <;> omega
    rw [freeSlots_update, List.flatMap_cons, List.flatMap_cons, Function.update_self,
      flatMap_update_of_notMem hs, hslots]
    refine List.Perm.trans ?_ (h.objects.append_left _)
    rw [← List.append_assoc, ← List.append_assoc]
    exact List.perm_append_comm.append_right _
  home := fun htidy => List.forall_mem_cons.mpr
    ⟨fun o ho => by rwa [Function.update_self, hslots] at ho,
      h.home_update (fun _ o ho => by rwa [hslots] at ho) htidy⟩

end Stock

end Akaris
