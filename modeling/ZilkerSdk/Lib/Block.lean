import Mathlib.Data.List.Basic

/-!
# Memory blocks

A heap block as the list of its cells.  Reading or writing outside the block has
no result: C leaves it undefined, so a program that stays inside its block is
one whose accesses all return `some`.

`window m a b` is the part of the block between two positions; the lemmas say
how writes, moves and reallocations act on windows.
-/

namespace ZilkerSdk.Lib

open List

variable {α : Type*}

/-! ## Operations -/

/-- The `n` cells from `off` on, when they all lie in the block. -/
def blockRead (m : List α) (off n : Nat) : Option (List α) :=
  if off + n ≤ m.length then some ((m.drop off).take n) else none

/-- `memcpy` of `data` into the block at `off`. -/
def blockWrite (m : List α) (off : Nat) (data : List α) : Option (List α) :=
  if off + data.length ≤ m.length then
    some (m.take off ++ data ++ m.drop (off + data.length))
  else none

/-- `memmove` of `n` cells inside the block. -/
def blockMove (m : List α) (dest src n : Nat) : Option (List α) :=
  (blockRead m src n).bind (blockWrite m dest)

/-- `realloc` to `n` cells: the common part is kept, new cells hold `fill`. -/
def blockResize (fill : α) (m : List α) (n : Nat) : List α :=
  m.take n ++ List.replicate (n - m.length) fill

/-- The cells at positions `a, a+1, …, b-1`. -/
def window (m : List α) (a b : Nat) : List α := (m.drop a).take (b - a)

/-! ## Lengths -/

variable {data m m' : List α} {a b n off : Nat}

theorem length_blockWrite (h : blockWrite m off data = some m') : m'.length = m.length := by
  unfold blockWrite at h
  split at h
  · cases h
    simp only [length_append, length_take, length_drop]
    omega
  · cases h

theorem length_blockResize (fill : α) (m : List α) (n : Nat) :
    (blockResize fill m n).length = n := by
  simp only [blockResize, length_append, length_take, length_replicate]
  omega

theorem length_window (hb : b ≤ m.length) : (window m a b).length = b - a := by
  simp only [window, length_take, length_drop]
  omega

/-! ## Windows -/

theorem blockRead_eq_window (h : off + n ≤ m.length) :
    blockRead m off n = some (window m off (off + n)) := by
  simp [blockRead, window, h]

/-- A write just after a window extends it by the written data. -/
theorem window_blockWrite (hab : a ≤ b) (h : blockWrite m b data = some m') :
    window m' a (b + data.length) = window m a b ++ data := by
  unfold blockWrite at h
  split at h
  · cases h
    have hlen : (m.take b).length = b := by simp only [length_take]; omega
    -- the cells from `a` on are the window, the data and what was behind
    have hdrop : (m.take b ++ data ++ m.drop (b + data.length)).drop a =
        (m.take b).drop a ++ data ++ m.drop (b + data.length) := by
      rw [append_assoc, drop_append_of_le_length (by omega), ← append_assoc]
    have htake : ((m.take b).drop a ++ data).length = b + data.length - a := by
      simp only [length_append, length_drop, hlen]
      omega
    rw [window, hdrop, ← htake, take_left]
    simp only [window, drop_take]
  · cases h

/-- A reallocation keeps what lies in both blocks. -/
theorem take_blockResize (fill : α) (hb : b ≤ m.length) (hn : b ≤ n) :
    (blockResize fill m n).take b = m.take b := by
  have hle : b ≤ (m.take n).length := by
    rw [length_take]
    exact Nat.le_min.mpr ⟨hn, hb⟩
  rw [blockResize, take_append_of_le_length hle, take_take, Nat.min_eq_left hn]

/-- Growing the block leaves the windows of the old block alone. -/
theorem window_blockResize (fill : α) (hn : m.length ≤ n) (hb : b ≤ m.length) :
    window (blockResize fill m n) a b = window m a b := by
  rw [window, window, ← drop_take, ← drop_take, take_blockResize fill hb (Nat.le_trans hb hn)]

/-- Moving the end of the text `s` at the front of the block. -/
theorem blockMove_eq {s : List α} {src dest : Nat} (hm : m.take s.length = s)
    (hsrc : src + n = s.length) (hdest : dest + n ≤ m.length) :
    blockMove m dest src n = some (m.take dest ++ (s.drop src ++ m.drop (dest + n))) := by
  have hle : s.length ≤ m.length := by
    rw [← hm, length_take]
    exact Nat.min_le_right ..
  have hread : (m.drop src).take n = s.drop src := by
    rw [← Nat.add_sub_cancel_left src n, hsrc, ← drop_take, hm]
  have hn : (s.drop src).length = n := by rw [length_drop, ← hsrc, Nat.add_sub_cancel_left]
  rw [blockMove, blockRead, if_pos (by omega), Option.bind_some, hread, blockWrite, hn,
    if_pos hdest, append_assoc]

/-- Splitting a window at a position inside it. -/
theorem window_split :
    (window m a b).drop n = window m (a + n) b ∧
      (n ≤ b - a → (window m a b).take n = window m a (a + n)) := by
  constructor
  · simp only [window, drop_take, drop_drop]
    congr 1
    omega
  · intro hn
    simp only [window, take_take]
    congr 1
    omega

end ZilkerSdk.Lib
