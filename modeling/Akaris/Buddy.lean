import Akaris.Lib.Word

/-!
# The map of the buddy allocator

`buddy.c`: the map has one stretch of bits for each level, and `buddy_levelstart` is to be where the
stretch of a level starts.  Its loop adds up `buddy_levelsize` of `curlevel`, but counts up `level`
instead: it ends when `level` has wrapped around to zero, after `2 ^ 32 - level` iterations that all
added the size of level 0, `buddyLevelstartLoop_eq`.

* **`buddy_offsets_iff`** — the start of a level is right, and found in as many iterations as there
  are levels below, for level 0 only.
-/

namespace Akaris

/-- A `struct buddy_allocator` that was filled out; its fields are of type `int`. -/
structure BuddyAllocator where
  granularity : ℕ
  levels : ℕ
  pageSize : ℕ
  granularity_pos : 0 < granularity
  levels_pos : 0 < levels
  pageSize_pos : 0 < pageSize
  granularity_lt : granularity < 2 ^ 31
  levels_lt : levels < 2 ^ 31
  pageSize_lt : pageSize < 2 ^ 31

/-- `buddy_levelsize`.  The products are of type `int`, a shift uses five bits of its count. -/
def buddyLevelsize (b : BuddyAllocator) (level : ℕ) : ℕ :=
  let shifted := toLong (wrap32 (2 ^ (sub32 b.levels level % 32)))
  let bytes := toLong (ofLong (shifted * b.granularity))
  ofLong ((bytes.tdiv b.pageSize).tdiv 8)

/-- The loop of `buddy_levelstart`, which runs `n` times at most: the total, and how many times it
ran. -/
def buddyLevelstartLoop (b : BuddyAllocator) (curlevel : ℕ) :
    (n level curtotal : ℕ) → Option (ℕ × ℕ)
  | 0, level, curtotal => if curlevel < level then none else some (curtotal, 0)
  | n + 1, level, curtotal =>
      if curlevel < level then
        (buddyLevelstartLoop b curlevel n (wrap32 (level + 1))
          (wrap32 (curtotal + buddyLevelsize b curlevel))).map fun r => (r.1, r.2 + 1)
      else some (curtotal, 0)

/-- `buddy_levelstart`, and how many times its loop ran. -/
def buddyLevelstart (b : BuddyAllocator) (level : ℕ) : Option (ℕ × ℕ) :=
  buddyLevelstartLoop b 0 (2 ^ 32) level 0

/-- `buddy_sizerequired`, and how many times the loop ran. -/
def buddySizerequired (b : BuddyAllocator) : Option (ℕ × ℕ) := buddyLevelstart b b.levels

section Offsets

variable {b : BuddyAllocator} {n k level curtotal : ℕ}

/-- **The loop** runs until `level` wraps around, `k` more times.  The induction is on `k`. -/
lemma buddyLevelstartLoop_eq (hk : 0 < k) (hlevel : level + k = 2 ^ 32) (hpos : 0 < level)
    (hn : k ≤ n) : buddyLevelstartLoop b 0 n level curtotal =
      some (wrap32 (curtotal + k * buddyLevelsize b 0), k) := by
  induction k generalizing n level curtotal with
  | zero => omega
  | succ k ih =>
      obtain ⟨m, rfl⟩ : ∃ m, n = m + 1 := ⟨n - 1, by omega⟩
      rw [buddyLevelstartLoop, if_pos hpos]
      by_cases hlast : k = 0
      · -- the counter wraps around to zero
        have hzero : wrap32 (level + 1) = 0 := by
          have hsum : level + 1 = 2 ^ 32 := by omega
          rw [hsum, wrap32, Nat.mod_self]
        have hstop : buddyLevelstartLoop b 0 m 0 (wrap32 (curtotal + buddyLevelsize b 0))
            = some (wrap32 (curtotal + buddyLevelsize b 0), 0) := by
          cases m <;> rfl
        rw [hzero, hstop, hlast, Option.map_some, Nat.zero_add, Nat.one_mul]
      · have hnext : wrap32 (level + 1) = level + 1 := wrap32_of_lt (by omega)
        rw [hnext, ih (by omega) (by omega) (by omega) (by omega), Option.map_some]
        have htotal : wrap32 (wrap32 (curtotal + buddyLevelsize b 0) + k * buddyLevelsize b 0)
            = wrap32 (curtotal + (k + 1) * buddyLevelsize b 0) := by
          have hsum : curtotal + buddyLevelsize b 0 + k * buddyLevelsize b 0
              = curtotal + (k + 1) * buddyLevelsize b 0 := by ring
          rw [wrap32, wrap32, Nat.mod_add_mod, hsum, wrap32]
        rw [htotal]

/-- What `buddy_levelstart` returns: right for level 0, and otherwise the size of level 0 taken
`2 ^ 32 - level` times. -/
lemma buddyLevelstart_eq (hlevel : level < 2 ^ 32) : buddyLevelstart b level =
    if level = 0 then some (0, 0)
    else some (wrap32 ((2 ^ 32 - level) * buddyLevelsize b 0), 2 ^ 32 - level) := by
  by_cases h0 : level = 0
  · rw [if_pos h0, h0, buddyLevelstart]
    rfl
  · rw [if_neg h0, buddyLevelstart, buddyLevelstartLoop_eq (k := 2 ^ 32 - level) (by omega)
      (by omega) (by omega) (by omega), Nat.zero_add]

/-- The levels below add up to the start of the level, and the loop takes as many iterations as
there are levels below. -/
def OffsetRight (b : BuddyAllocator) (level : ℕ) (r : Option (ℕ × ℕ)) : Prop :=
  r = some (∑ i ∈ Finset.range level, buddyLevelsize b i, level)

/-- **Only level 0 starts where it should.**  For any other level the loop does not stop in time,
and as every allocator has a level, the size that it says it requires is not found either. -/
theorem buddy_offsets_iff (b : BuddyAllocator) :
    (∀ level ≤ b.levels, OffsetRight b level (buddyLevelstart b level) ↔ level = 0) ∧
    ¬OffsetRight b b.levels (buddySizerequired b) := by
  have hlevels := b.levels_lt
  have hlevelspos := b.levels_pos
  have hiff : ∀ level ≤ b.levels, OffsetRight b level (buddyLevelstart b level) ↔ level = 0 := by
    intro level hle
    rw [buddyLevelstart_eq (by omega), OffsetRight]
    constructor
    · intro h
      by_contra h0
      rw [if_neg h0, Option.some.injEq, Prod.mk.injEq] at h
      omega
    · rintro rfl
      rfl
  refine ⟨hiff, fun h => ?_⟩
  have h0 := (hiff b.levels le_rfl).mp h
  omega

/-- An allocator of eight pages, with one byte for level 0. -/
def smallBuddy : BuddyAllocator where
  granularity := 4096
  levels := 3
  pageSize := 4096
  granularity_pos := by norm_num
  levels_pos := by norm_num
  pageSize_pos := by norm_num
  granularity_lt := by norm_num
  levels_lt := by norm_num
  pageSize_lt := by norm_num

/-- Its levels 0 and 3. -/
theorem buddy_offsets_small : OffsetRight smallBuddy 0 (buddyLevelstart smallBuddy 0) ∧
    ¬OffsetRight smallBuddy 3 (buddyLevelstart smallBuddy 3) :=
  ⟨((buddy_offsets_iff smallBuddy).1 0 (by decide)).mpr rfl,
    fun h => absurd (((buddy_offsets_iff smallBuddy).1 3 (by decide)).mp h) (by decide)⟩

/-- **Level 1 starts at `2 ^ 32 - 1`**, in front of level 0, whose byte it should follow. -/
theorem buddy_level_one_wrong : buddyLevelsize smallBuddy 0 = 1 ∧
    buddyLevelstart smallBuddy 1 = some (2 ^ 32 - 1, 2 ^ 32 - 1) ∧
    ¬OffsetRight smallBuddy 1 (buddyLevelstart smallBuddy 1) := by
  have hsize : buddyLevelsize smallBuddy 0 = 1 := by decide +kernel
  have hstart : buddyLevelstart smallBuddy 1 = some (2 ^ 32 - 1, 2 ^ 32 - 1) := by
    rw [buddyLevelstart_eq (by norm_num), if_neg one_ne_zero, hsize, Nat.mul_one,
      wrap32_of_lt (by norm_num)]
  refine ⟨hsize, hstart, fun h => ?_⟩
  rw [hstart, OffsetRight, Option.some.injEq, Prod.mk.injEq] at h
  exact absurd h.2 (by norm_num)

end Offsets

end Akaris
