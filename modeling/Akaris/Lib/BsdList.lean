import Mathlib

/-!
# Intrusive doubly linked lists

The `LIST_` macros of `queue.h` over a heap of link fields.  An element carries its own links:
`leNext` is the next element and `lePrev` the *address of the pointer that points at it* — the
`lhFirst` of a list head, or the `leNext` of the element before.  `Cell` names those addresses, so
that `*(elm)->field.le_prev = …` is a write through a `Cell`.

`Chain L c xs` says that following the pointer in cell `c` visits exactly `xs`, and that every
`lePrev` on the way points back.  Three facts are all a client needs: `Chain.insertHead` and
`Chain.removeFirst` for the list operated on, and `Chain.congr` for every list that shares no cell
with it.  Inserting needs `x ∉ xs`: linking an element a second time ties the list into a knot.
-/

namespace Akaris.BsdList

/-- The address of a pointer to an element: a list head's first pointer or an element's next
pointer. -/
inductive Cell (η α : Type)
  | first (head : η)
  | next (elm : α)
  deriving DecidableEq

/-- The link fields of all list heads `η` and all elements `α`. -/
structure Links (η α : Type) where
  lhFirst : η → Option α
  leNext : α → Option α
  lePrev : α → Cell η α

variable {η α : Type}

/-- Follow the pointer stored in a cell. -/
def Links.read (L : Links η α) : Cell η α → Option α
  | .first h => L.lhFirst h
  | .next x => L.leNext x

/-- Following the pointer in cell `c` visits exactly `xs`, and the back pointers agree. -/
def Chain (L : Links η α) : Cell η α → List α → Prop
  | c, [] => L.read c = none
  | c, x :: xs => L.read c = some x ∧ L.lePrev x = c ∧ Chain L (.next x) xs

variable {L L' : Links η α} {h h' : η} {c : Cell η α} {x : α} {xs ys : List α}

lemma Chain.read_eq (hc : Chain L c xs) : L.read c = xs.head? := by
  cases xs with
  | nil => simpa [Chain] using hc
  | cons x xs => simpa [Chain] using hc.1

/-- A chain depends only on its own cells and back pointers. -/
lemma Chain.congr (hread : L'.read c = L.read c) (hnext : ∀ x ∈ xs, L'.leNext x = L.leNext x)
    (hprev : ∀ x ∈ xs, L'.lePrev x = L.lePrev x) (hc : Chain L c xs) : Chain L' c xs := by
  induction xs generalizing c with
  | nil => simpa [Chain, hread] using hc
  | cons x xs ih =>
      obtain ⟨h1, h2, h3⟩ := hc
      refine ⟨hread.trans h1, (hprev x (by simp)).trans h2, ?_⟩
      refine ih ?_ (fun y hy => hnext y (by simp [hy])) (fun y hy => hprev y (by simp [hy])) h3
      exact hnext x (by simp)

/-- The links determine the chain. -/
lemma Chain.unique (hx : Chain L c xs) (hy : Chain L c ys) : xs = ys := by
  induction xs generalizing c ys with
  | nil =>
      have hhead := hy.read_eq
      rw [hx.read_eq] at hhead
      exact (List.head?_eq_none_iff.mp hhead.symm).symm
  | cons x xs ih =>
      cases ys with
      | nil => exact absurd (hx.1.symm.trans hy) (by simp)
      | cons y ys =>
          have hxy : x = y := Option.some.inj (hx.1.symm.trans hy.1)
          subst hxy
          rw [ih hx.2.2 hy.2.2]

/-! ## The macros -/

variable [DecidableEq η] [DecidableEq α]

namespace Links

/-- Store a pointer in a cell. -/
def write (L : Links η α) (c : Cell η α) (v : Option α) : Links η α :=
  match c with
  | .first h => { L with lhFirst := Function.update L.lhFirst h v }
  | .next x => { L with leNext := Function.update L.leNext x v }

/-- Redirect the back pointer of an element that may be absent. -/
def setPrev (L : Links η α) (x : Option α) (c : Cell η α) : Links η α :=
  match x with
  | some x => { L with lePrev := Function.update L.lePrev x c }
  | none => L

/-- `LIST_INIT`. -/
def listInit (L : Links η α) (h : η) : Links η α := L.write (.first h) none

/-- `LIST_INSERT_HEAD`. -/
def insertHead (L : Links η α) (h : η) (x : α) : Links η α :=
  let L := L.write (.next x) (L.lhFirst h)
  let L := L.setPrev (L.leNext x) (.next x)
  let L := L.write (.first h) (some x)
  L.setPrev (some x) (.first h)

/-- `LIST_REMOVE`. -/
def remove (L : Links η α) (x : α) : Links η α :=
  let L := L.setPrev (L.leNext x) (L.lePrev x)
  L.write (L.lePrev x) (L.leNext x)

end Links

/-! ## The operations on the list itself -/

lemma Chain.listInit (L : Links η α) (h : η) : Chain (L.listInit h) (.first h) [] := by
  simp [Chain, Links.listInit, Links.read, Links.write]

/-- Inserting an element that is not linked puts it in front. -/
theorem Chain.insertHead (hc : Chain L (.first h) xs) (hnd : xs.Nodup) (hx : x ∉ xs) :
    Chain (L.insertHead h x) (.first h) (x :: xs) := by
  have hfirst : L.lhFirst h = xs.head? := hc.read_eq
  cases xs with
  | nil => simp_all [Chain, Links.insertHead, Links.read, Links.write, Links.setPrev]
  | cons y ys =>
      obtain ⟨hxy, hxys⟩ : x ≠ y ∧ x ∉ ys := by simpa using hx
      obtain ⟨hyys, -⟩ := List.nodup_cons.mp hnd
      refine ⟨?_, ?_, ?_, ?_, hc.2.2.congr ?_ ?_ ?_⟩
      · simp [Links.insertHead, Links.read, Links.write, Links.setPrev]
      · simp [Links.insertHead, Links.write, Links.setPrev]
      · simp [Links.insertHead, Links.read, Links.write, Links.setPrev, hfirst]
      · simp [Links.insertHead, Links.write, Links.setPrev, hfirst, Ne.symm hxy]
      · simp [Links.insertHead, Links.read, Links.write, Links.setPrev, hfirst, Ne.symm hxy]
      all_goals
        intro z hz
        have hzx : z ≠ x := by rintro rfl; exact hxys hz
        have hzy : z ≠ y := by rintro rfl; exact hyys hz
        simp [Links.insertHead, Links.write, Links.setPrev, hfirst, hzx, hzy]

/-- Removing the first element leaves the rest. -/
theorem Chain.removeFirst (hc : Chain L (.first h) (x :: xs)) (hnd : (x :: xs).Nodup) :
    Chain (L.remove x) (.first h) xs := by
  obtain ⟨-, hprev, hrest⟩ := hc
  have hnext : L.leNext x = xs.head? := hrest.read_eq
  obtain ⟨hx, hnd⟩ := List.nodup_cons.mp hnd
  cases xs with
  | nil => simp_all [Chain, Links.remove, Links.read, Links.write, Links.setPrev]
  | cons y ys =>
      obtain ⟨hyys, -⟩ := List.nodup_cons.mp hnd
      have hxy : x ≠ y := by simp_all
      refine ⟨?_, ?_, hrest.2.2.congr ?_ ?_ ?_⟩
      · simp [Links.remove, Links.read, Links.write, Links.setPrev, hnext, hprev, hxy]
      · simp [Links.remove, Links.write, Links.setPrev, hnext, hprev, hxy]
      · simp [Links.remove, Links.read, Links.write, Links.setPrev, hnext, hprev, hxy]
      all_goals
        intro z hz
        have hzy : z ≠ y := by rintro rfl; exact hyys hz
        simp [Links.remove, Links.write, Links.setPrev, hnext, hprev, hxy, hzy]

/-! ## The other lists -/

/-- Inserting leaves every list alone that neither has the element nor shares the head. -/
lemma Chain.insertHead_frame (hc : Chain L (.first h') ys) (hh : h' ≠ h) (hx : x ∉ ys)
    (hfirst : ∀ y, L.lhFirst h = some y → y ∉ ys) :
    Chain (L.insertHead h x) (.first h') ys := by
  cases hf : L.lhFirst h with
  | none =>
      refine hc.congr ?_ ?_ ?_
      · simp [Links.insertHead, Links.read, Links.write, Links.setPrev, hf, hh]
      all_goals
        intro z hz
        have hzx : z ≠ x := by rintro rfl; exact hx hz
        simp [Links.insertHead, Links.write, Links.setPrev, hf, hzx]
  | some y =>
      refine hc.congr ?_ ?_ ?_
      · simp [Links.insertHead, Links.read, Links.write, Links.setPrev, hf, hh]
      all_goals
        intro z hz
        have hzx : z ≠ x := by rintro rfl; exact hx hz
        have hzy : z ≠ y := by rintro rfl; exact hfirst z hf hz
        simp [Links.insertHead, Links.write, Links.setPrev, hf, hzx, hzy]

/-- Removing the first element of a list leaves every list alone that is disjoint from it. -/
lemma Chain.removeFirst_frame (hc : Chain L (.first h') ys) (hh : h' ≠ h)
    (hx : Chain L (.first h) (x :: xs)) (hnd : (x :: xs).Nodup) (hdisj : ∀ y ∈ ys, y ∉ xs) :
    Chain (L.remove x) (.first h') ys := by
  have hprev := hx.2.1
  have hnext : L.leNext x = xs.head? := hx.2.2.read_eq
  cases xs with
  | nil =>
      refine hc.congr ?_ ?_ ?_ <;>
        simp [Links.remove, Links.read, Links.write, Links.setPrev, hnext, hprev, hh]
  | cons y ys' =>
      have hxy : x ≠ y := by simp_all
      refine hc.congr ?_ ?_ ?_
      · simp [Links.remove, Links.read, Links.write, Links.setPrev, hnext, hprev, hh, hxy]
      all_goals
        intro z hz
        have hzy : z ≠ y := by rintro rfl; exact hdisj z hz (by simp)
        simp [Links.remove, Links.write, Links.setPrev, hnext, hprev, hxy, hzy]

end Akaris.BsdList
