import Mathlib.Data.List.Basic

/-!
# Pools of threads

The threads of a program, or the calls that are under way in it, are kept in a list: a thread
is known by its place in the list, which it never leaves.  New threads are put at the end, and
a step of a thread replaces it by what it has become.
-/

namespace ZilkerSdk.Lib

open List

variable {α : Type*} {P Q : Nat → α → Prop} {pool : List α}

/-- Every member of the pool has the property, at its place. -/
def EachAt (P : Nat → α → Prop) (pool : List α) : Prop := ∀ i a, pool[i]? = some a → P i a

@[simp] theorem eachAt_nil : EachAt P [] := by
  intro i a h
  simp at h

theorem EachAt.mono (h : EachAt P pool) (himp : ∀ i a, pool[i]? = some a → P i a → Q i a) :
    EachAt Q pool :=
  fun i a ha => himp i a ha (h i a ha)

/-- The pool after a new thread has been put at its end. -/
theorem getElem?_spawn (pool : List α) (a : α) (i : Nat) :
    (pool ++ [a])[i]? = if i = pool.length then some a else pool[i]? := by
  split
  · rename_i hi
    rw [hi, getElem?_concat_length]
  · rename_i hi
    rcases Nat.lt_or_gt_of_ne hi with hlt | hgt
    · exact getElem?_append_left hlt
    · rw [getElem?_eq_none (by simp; omega), getElem?_eq_none (by omega)]

variable {a b : α} {i : Nat} {p : α → Bool}

theorem EachAt.spawn (h : EachAt P pool) (hnew : P pool.length a) : EachAt P (pool ++ [a]) := by
  intro i b hb
  rw [getElem?_spawn] at hb
  split at hb
  · rename_i hi
    exact hi ▸ Option.some.inj hb ▸ hnew
  · exact h i b hb

/-- The pool after one of its threads has made a step. -/
theorem getElem?_update (h : pool[i]? = some a) (b : α) (j : Nat) :
    (pool.set i b)[j]? = if j = i then some b else pool[j]? := by
  obtain ⟨hi, -⟩ := List.getElem?_eq_some_iff.mp h
  by_cases hij : j = i
  · simp [hij, hi]
  · simp [hij, Ne.symm hij]

theorem EachAt.update (h : EachAt P pool) (ha : pool[i]? = some a) (hnew : P i b) :
    EachAt P (pool.set i b) := by
  intro j c hc
  rw [getElem?_update ha] at hc
  split at hc
  · rename_i hj
    exact hj ▸ Option.some.inj hc ▸ hnew
  · exact h j c hc

/-! ## Threads with a property -/

/-- The thread with this number is there and has the property. -/
def HasAt (p : α → Bool) (pool : List α) (i : Nat) : Prop := ∃ a, pool[i]? = some a ∧ p a = true

theorem hasAt_iff (h : pool[i]? = some a) : HasAt p pool i ↔ p a = true := by
  constructor
  · rintro ⟨b, hb, hp⟩
    exact Option.some.inj (h.symm.trans hb) ▸ hp
  · intro hp
    exact ⟨a, h, hp⟩

/-- The numbers before and after a step differ by what the thread was and what it has become. -/
theorem countP_update (p : α → Bool) (h : pool[i]? = some a) (b : α) :
    (pool.set i b).countP p + (if p a then 1 else 0) =
      pool.countP p + (if p b then 1 else 0) := by
  obtain ⟨hi, rfl⟩ := List.getElem?_eq_some_iff.mp h
  rw [countP_set hi]
  by_cases hp : p pool[i] = true
  · have hpos : 0 < pool.countP p := countP_pos_iff.mpr ⟨_, getElem_mem hi, hp⟩
    simp only [hp, if_true]
    omega
  · simp [hp]

/-- Counting the threads is counting their numbers. -/
theorem countP_eq_range (p : α → Bool) (pool : List α) :
    pool.countP p = (List.range pool.length).countP fun i => pool[i]?.any p := by
  induction pool with
  | nil => rfl
  | cons a pool ih =>
    rw [length_cons, range_succ_eq_map, countP_cons, countP_cons, countP_map, ih]
    rfl

/-- Where at most one thread has a property, two that have it are the same. -/
theorem eq_of_countP_le_one (hle : pool.countP p ≤ 1) {j : Nat} (hi : HasAt p pool i)
    (hj : HasAt p pool j) : i = j := by
  induction pool generalizing i j with
  | nil => simp [HasAt] at hi
  | cons a pool ih =>
    rw [countP_cons] at hle
    -- no later one has the property if the first has it
    have hfirst : p a = true → ∀ k, ¬ HasAt p pool k := by
      rintro ha k ⟨b, hb, hpb⟩
      have : 0 < pool.countP p := countP_pos_iff.mpr ⟨b, mem_of_getElem? hb, hpb⟩
      simp only [ha, if_true] at hle
      omega
    cases i with
    | zero =>
      cases j with
      | zero => rfl
      | succ j =>
        obtain ⟨b, hb, hpb⟩ := hi
        exact absurd hj (hfirst (Option.some.inj hb ▸ hpb) j)
    | succ i =>
      cases j with
      | zero =>
        obtain ⟨b, hb, hpb⟩ := hj
        exact absurd hi (hfirst (Option.some.inj hb ▸ hpb) i)
      | succ j => rw [ih (by omega) hi hj]

end ZilkerSdk.Lib
