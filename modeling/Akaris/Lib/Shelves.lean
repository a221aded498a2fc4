import Mathlib

/-!
# Items spread over shelves

A store whose items lie on several shelves: `l` lists the shelves and `f s` what lies on the shelf
`s`, so that `l.flatMap f` is everything in store.  Whatever moves on one shelf shows up in the
total as the same move: `flatMap_take` and `flatMap_put` say so for the item at the front of a
shelf, and `flatMap_update_of_notMem` is the frame rule for shelves that are not listed.
-/

namespace Akaris

variable {ι α : Type} [DecidableEq ι] {l : List ι} {f : ι → List α} {s : ι}

/-- A shelf that is not listed does not matter. -/
lemma flatMap_update_of_notMem (hs : s ∉ l) (xs : List α) :
    l.flatMap (Function.update f s xs) = l.flatMap f := by
  refine List.flatMap_congr fun j hj => ?_
  rw [Function.update_of_ne]
  rintro rfl
  exact hs hj

/-- One shelf taken out of the total. -/
lemma flatMap_perm_erase (hs : s ∈ l) : (l.flatMap f).Perm (f s ++ (l.erase s).flatMap f) := by
  have h := (List.perm_cons_erase hs).flatMap_right f
  rwa [List.flatMap_cons] at h

/-- The shelves other than `s` do not notice a change of `s`. -/
lemma flatMap_erase_update (hl : l.Nodup) (xs : List α) :
    (l.erase s).flatMap (Function.update f s xs) = (l.erase s).flatMap f :=
  flatMap_update_of_notMem hl.not_mem_erase xs

/-- Taking the first item off a shelf takes it out of the store. -/
lemma flatMap_take (hl : l.Nodup) (hs : s ∈ l) {x : α} {xs : List α} (hf : f s = x :: xs) :
    (l.flatMap f).Perm (x :: l.flatMap (Function.update f s xs)) := by
  refine (flatMap_perm_erase hs).trans ?_
  rw [hf, List.cons_append]
  refine List.Perm.cons x ((flatMap_perm_erase hs).trans ?_).symm
  rw [flatMap_erase_update hl, Function.update_self]

/-- Putting an item on the front of a shelf adds it to the store. -/
lemma flatMap_put (hl : l.Nodup) (hs : s ∈ l) (x : α) :
    (l.flatMap (Function.update f s (x :: f s))).Perm (x :: l.flatMap f) := by
  have h := flatMap_take (f := Function.update f s (x :: f s)) hl hs (Function.update_self ..)
  simpa using h

/-- Different shelves of a store without duplicates have nothing in common. -/
lemma disjoint_of_flatMap_nodup (hnd : (l.flatMap f).Nodup) {t : ι} (hs : s ∈ l) (ht : t ∈ l)
    (hst : s ≠ t) : ∀ x ∈ f s, x ∉ f t := by
  intro x hxs hxt
  have hnd' := (flatMap_perm_erase hs).nodup_iff.mp hnd
  have hmem : x ∈ (l.erase s).flatMap f :=
    List.mem_flatMap.mpr ⟨t, (List.mem_erase_of_ne (Ne.symm hst)).mpr ht, hxt⟩
  exact (List.disjoint_of_nodup_append hnd') hxs hmem

/-- A shelf of a store without duplicates has none. -/
lemma nodup_of_flatMap_nodup (hnd : (l.flatMap f).Nodup) (hs : s ∈ l) : (f s).Nodup :=
  ((flatMap_perm_erase hs).nodup_iff.mp hnd).sublist (List.sublist_append_left _ _)

end Akaris
