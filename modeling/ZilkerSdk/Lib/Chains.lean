import Mathlib.Data.List.FinRange

/-!
# Chains

Entries that are spread over a fixed number of chains, as a hash table with
separate chaining spreads them: `c : Fin n → List α`.  The order in which a walk
over the whole table meets the entries is chain by chain.
-/

namespace ZilkerSdk.Lib

open List

variable {α : Type*} {n : Nat}

/-- All entries, in the order of the chains. -/
def entries (c : Fin n → List α) : List α := (List.finRange n).flatMap c

/-- The entries of the chains from the `k`-th on. -/
def entriesFrom (c : Fin n → List α) (k : Nat) : List α :=
  ((List.finRange n).drop k).flatMap c

variable {c : Fin n → List α} {a : α} {i : Fin n} {l : List α} {k : Nat} {p : Fin n → Bool}

@[simp] theorem mem_entries : a ∈ entries c ↔ ∃ i, a ∈ c i := by
  simp [entries]

/-! ## One entry more or less -/

/-- Taking one entry out of its chain takes it out of the table. -/
theorem entries_perm_cons (h : (c i).Perm (a :: l)) :
    (entries c).Perm (a :: entries (Function.update c i l)) := by
  obtain ⟨before, after, hsplit⟩ := append_of_mem (mem_finRange i)
  have hnodup := nodup_finRange n
  rw [hsplit, nodup_middle, nodup_cons, mem_append, not_or] at hnodup
  -- the other chains are as they were
  have hkeep : ∀ is : List (Fin n), i ∉ is → is.flatMap (Function.update c i l) = is.flatMap c := by
    intro is hi
    refine flatMap_congr fun j hj => ?_
    apply Function.update_of_ne
    rintro rfl
    exact hi hj
  simp only [entries, hsplit, flatMap_append, flatMap_cons, hkeep before hnodup.1.1,
    hkeep after hnodup.1.2, Function.update_self]
  exact ((h.append_right _).append_left _).trans perm_middle

/-! ## Walking over the chains -/

/-- After the chain `b` the walk goes on with the chains behind it. -/
theorem entriesFrom_of_find {b : Fin n} (hp : ∀ i, p i = false → c i = [])
    (h : ((List.finRange n).drop k).find? p = some b) :
    entriesFrom c k = c b ++ entriesFrom c (b + 1) := by
  obtain ⟨-, before, after, hsplit, hbefore⟩ := find?_eq_some_iff_append.mp h
  -- `b` stands at place `k + before.length`, which is `b` itself
  have hplace : (finRange n).drop (k + before.length) = b :: after := by
    rw [← drop_drop, hsplit, drop_left]
  have hlt : k + before.length < (finRange n).length := by
    by_contra hge
    rw [drop_eq_nil_of_le (Nat.le_of_not_lt hge)] at hplace
    cases hplace
  rw [drop_eq_getElem_cons hlt] at hplace
  obtain ⟨hb, hafter⟩ := cons.inj hplace
  have hval : k + before.length = b := by
    rw [← hb]
    simp
  have hskip : before.flatMap c = [] := by
    rw [flatMap_eq_nil_iff]
    exact fun i hi => hp i (by simpa using hbefore i hi)
  rw [entriesFrom, hsplit, flatMap_append, hskip, nil_append, flatMap_cons,
    entriesFrom, ← hval, hafter]

theorem mem_drop_finRange : i ∈ (List.finRange n).drop k ↔ k ≤ i := by
  rw [mem_drop_iff_getElem]
  constructor
  · rintro ⟨m, hm, rfl⟩
    simp
  · intro hk
    refine ⟨i - k, ?_, ?_⟩
    · simp only [length_finRange]
      omega
    · simp [Nat.add_sub_cancel' hk]

theorem mem_entriesFrom : a ∈ entriesFrom c k ↔ ∃ i, k ≤ i.val ∧ a ∈ c i := by
  simp [entriesFrom, mem_drop_finRange]

/-- Chains in front of the walk do not matter for the rest of it. -/
theorem entriesFrom_update (l : List α) (h : i < k) :
    entriesFrom (Function.update c i l) k = entriesFrom c k := by
  refine flatMap_congr fun j hj => ?_
  apply Function.update_of_ne
  rintro rfl
  exact absurd (mem_drop_finRange.mp hj) (Nat.not_le_of_lt h)

/-- What is left of a walk is part of the table. -/
theorem append_entriesFrom_sublist (h : l.Sublist (c i)) :
    (l ++ entriesFrom c (i + 1)).Sublist (entries c) := by
  have hlt : i.val < (finRange n).length := by simp
  have hsplit : entries c = ((finRange n).take i).flatMap c ++ (c i ++ entriesFrom c (i + 1)) := by
    rw [entries, entriesFrom]
    nth_rewrite 1 [← take_append_drop i (finRange n)]
    rw [flatMap_append, drop_eq_getElem_cons hlt, flatMap_cons]
    simp
  rw [hsplit]
  exact (h.append_right _).trans (sublist_append_right _ _)

end ZilkerSdk.Lib
