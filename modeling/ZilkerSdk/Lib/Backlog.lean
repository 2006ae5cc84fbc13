import ZilkerSdk.Lib.Pool

/-!
# Decisions that are carried out later

A program decides under a lock and carries out what it has decided after the lock is released.
Decisions are numbered in the order in which they are made, and what the world sees is the
decision that was carried out last.  The members of a pool each have at most one decision that is
still to be carried out.

If the newest decision is never carried out while an older one is still waiting, then as soon as
nothing waits the world has seen the newest decision.
-/

namespace ZilkerSdk.Lib

open Option

variable {α : Type*} (pending : α → Option Nat)

/-- No decision is waiting twice. -/
def Backlog.Distinct (pool : List α) : Prop :=
  ∀ (i j : Nat) (a b : α) (d : Nat), pool[i]? = some a → pool[j]? = some b → pending a = some d →
    pending b = some d → i = j

/-- The newest decision is waiting, or nothing is and `done` says that the newest decision has been
carried out last. -/
structure Backlog (newest : Nat) (done : Prop) (pool : List α) : Prop where
  bounded : EachAt (fun _ a => ∀ d, pending a = some d → d ≤ newest) pool
  distinct : Backlog.Distinct pending pool
  settled : (∃ (i : Nat) (a : α), pool[i]? = some a ∧ pending a = some newest) ∨
    (EachAt (fun _ a => pending a = none) pool ∧ done)

/-- The decision may be carried out now: it is not the newest, or nothing older is waiting. -/
def InTurn (newest : Nat) (pool : List α) (d : Nat) : Prop :=
  d = newest → ∀ a ∈ pool, ∀ d' ∈ pending a, d' = d

instance (newest : Nat) (pool : List α) (d : Nat) : Decidable (InTurn pending newest pool d) := by
  delta InTurn
  infer_instance

variable {pending} {newest : Nat} {done done' : Prop} {pool : List α} {i d : Nat} {a b c : α}

theorem backlog_nil (h : done) : Backlog pending newest done [] where
  bounded := eachAt_nil
  distinct := by simp [Backlog.Distinct]
  settled := .inr ⟨eachAt_nil, h⟩

namespace Backlog

/-- When nothing is waiting, the newest decision has been carried out. -/
theorem idle (h : Backlog pending newest done pool)
    (hidle : ∀ a ∈ pool, pending a = none) : done := by
  rcases h.settled with ⟨i, a, ha, hpending⟩ | ⟨-, hdone⟩
  · rw [hidle a (List.mem_of_getElem? ha)] at hpending
    cases hpending
  · exact hdone

/-! ### No decision is waiting twice -/

variable {j : Nat}

section

variable (h : Distinct pending pool)
include h

/-- One place has changed, and what is waiting there is waiting nowhere else. -/
theorem Distinct.of_place {pool' : List α} (hb : pool'[i]? = some b)
    (hothers : ∀ j, j ≠ i → pool'[j]? = pool[j]?)
    (hplace : EachAt (fun j c => j ≠ i → ∀ d, pending b = some d → pending c ≠ some d) pool) :
    Distinct pending pool' := by
  intro j k c c' d hc hc' hd hd'
  by_cases hj : j = i <;> by_cases hk : k = i
  · rw [hj, hk]
  · cases hb.symm.trans (hj ▸ hc)
    exact absurd hd' (hplace k c' (hothers k hk ▸ hc') hk d hd)
  · cases hb.symm.trans (hk ▸ hc')
    exact absurd hd (hplace j c (hothers j hj ▸ hc) hj d hd')
  · exact h j k c c' d (hothers j hj ▸ hc) (hothers k hk ▸ hc') hd hd'

theorem Distinct.update (ha : pool[i]? = some a)
    (hplace : EachAt (fun j c => j ≠ i → ∀ d, pending b = some d → pending c ≠ some d) pool) :
    Distinct pending (pool.set i b) :=
  h.of_place (by rw [getElem?_update ha, if_pos rfl])
    (fun j hj => by rw [getElem?_update ha, if_neg hj]) hplace

theorem Distinct.spawn
    (hplace : EachAt (fun _ c => ∀ d, pending b = some d → pending c ≠ some d) pool) :
    Distinct pending (pool ++ [b]) :=
  h.of_place List.getElem?_concat_length (fun j hj => by rw [getElem?_spawn, if_neg hj])
    (hplace.mono fun _ _ _ hc _ => hc)

end

/-! ### Steps -/

/-- A step that leaves alone what is waiting. -/
theorem keep (h : Backlog pending newest done pool) (ha : pool[i]? = some a)
    (hb : pending b = pending a) : Backlog pending newest done (pool.set i b) where
  bounded := h.bounded.update ha fun d hd => h.bounded i a ha d (hb ▸ hd)
  distinct := Distinct.update h.distinct ha fun j c hc hj d hd hd' =>
    hj (h.distinct j i c a d hc ha hd' (hb ▸ hd))
  settled := by
    rcases h.settled with ⟨j, c, hc, hd⟩ | ⟨hnone, hdone⟩
    · by_cases hj : j = i
      · cases ha.symm.trans (hj ▸ hc)
        exact .inl ⟨i, b, by rw [getElem?_update ha, if_pos rfl], hb ▸ hd⟩
      · exact .inl ⟨j, c, by rw [getElem?_update ha, if_neg hj]; exact hc, hd⟩
    · exact .inr ⟨hnone.update ha (hb ▸ hnone i a ha), hdone⟩

section

variable (h : Backlog pending newest done pool)
include h

/-- Carrying out a decision in turn. -/
theorem carryOut (ha : pool[i]? = some a) (hd : pending a = some d) (hb : pending b = none)
    (hturn : InTurn pending newest pool d) (hdone : d = newest → done') :
    Backlog pending newest done' (pool.set i b) where
  bounded := h.bounded.update ha (by simp [hb])
  distinct := Distinct.update h.distinct ha (by simp [hb, EachAt])
  settled := by
    by_cases hnewest : d = newest
    · -- it was the only one waiting
      refine .inr ⟨?_, hdone hnewest⟩
      intro j c hc
      rw [getElem?_update ha] at hc
      split at hc
      · exact some.inj hc ▸ hb
      · rename_i hj
        cases hpending : pending c with
        | none => rfl
        | some e =>
          have he : e = d := hturn hnewest c (List.mem_of_getElem? hc) e hpending
          exact absurd (h.distinct j i c a d hc ha (he ▸ hpending) hd) hj
    · rcases h.settled with ⟨j, c, hc, hpending⟩ | ⟨hnone, -⟩
      · -- the newest one is still waiting
        refine .inl ⟨j, c, ?_, hpending⟩
        rw [getElem?_update ha, if_neg]
        · exact hc
        · rintro rfl
          cases ha.symm.trans hc
          exact hnewest (some.inj (hd.symm.trans hpending))
      · rw [hnone i a ha] at hd
        cases hd

/-- Nothing that was waiting has the number of a new decision. -/
theorem ne_new {c : α} (hc : pool[j]? = some c) : pending c ≠ some (newest + 1) := by
  intro hpending
  exact absurd (h.bounded j c hc _ hpending) (by omega)

/-- A member with nothing waiting makes a new decision. -/
theorem decide (ha : pool[i]? = some a) (hb : pending b = some (newest + 1)) :
    Backlog pending (newest + 1) done' (pool.set i b) where
  bounded := by
    refine EachAt.update ?_ ha (by simp [hb])
    exact h.bounded.mono fun j c _ hle d hd => Nat.le_succ_of_le (hle d hd)
  distinct := Distinct.update h.distinct ha fun _ _ hc _ _ hd => hb.symm.trans hd ▸ h.ne_new hc
  settled := .inl ⟨i, b, by rw [getElem?_update ha, if_pos rfl], hb⟩

/-- A new member with nothing waiting. -/
theorem spawn (hb : pending b = none) : Backlog pending newest done (pool ++ [b]) where
  bounded := h.bounded.spawn (by simp [hb])
  distinct := Distinct.spawn h.distinct (by simp [hb, EachAt])
  settled := by
    rcases h.settled with ⟨j, c, hc, hpending⟩ | ⟨hnone, hdone⟩
    · refine .inl ⟨j, c, ?_, hpending⟩
      rw [getElem?_spawn, if_neg (Nat.ne_of_lt (List.getElem?_eq_some_iff.mp hc).1)]
      exact hc
    · exact .inr ⟨hnone.spawn hb, hdone⟩

end

/-- A new member makes a new decision. -/
theorem spawnDecide (h : Backlog pending newest done pool) (hb : pending b = some (newest + 1)) :
    Backlog pending (newest + 1) done' (pool ++ [b]) where
  bounded := by
    refine EachAt.spawn ?_ (by simp [hb])
    exact h.bounded.mono fun j c _ hle d hd => Nat.le_succ_of_le (hle d hd)
  distinct := Distinct.spawn h.distinct fun _ _ hc _ hd => hb.symm.trans hd ▸ h.ne_new hc
  settled := .inl ⟨pool.length, b, List.getElem?_concat_length, hb⟩

/-- A member hands its decision over to a new one. -/
theorem handOver (h : Backlog pending newest done pool) (ha : pool[i]? = some a)
    (hd : pending a = some d) (hb : pending b = none) (hc : pending c = some d) :
    Backlog pending newest done (pool.set i b ++ [c]) where
  bounded := by
    refine EachAt.spawn (h.bounded.update ha (by simp [hb])) fun e he => ?_
    exact h.bounded i a ha e (hd.trans (hc.symm.trans he))
  distinct := by
    refine (Distinct.update h.distinct ha (by simp [hb, EachAt])).spawn fun j c' hc' e he he' => ?_
    cases hc.symm.trans he
    rw [getElem?_update ha] at hc'
    split at hc'
    · rw [← some.inj hc', hb] at he'
      cases he'
    · rename_i hj
      exact hj (h.distinct j i c' a d hc' ha he' hd)
  settled := by
    -- the newest decision is handed over, or it is that of another member
    rcases h.settled with ⟨j, e, he, hpending⟩ | ⟨hnone, -⟩
    · by_cases hj : j = i
      · cases ha.symm.trans (hj ▸ he)
        cases hd.symm.trans hpending
        exact .inl ⟨_, c, List.getElem?_concat_length, hc⟩
      · refine .inl ⟨j, e, ?_, hpending⟩
        have hlt : j < (pool.set i b).length := by simpa using (List.getElem?_eq_some_iff.mp he).1
        rw [getElem?_spawn, if_neg (Nat.ne_of_lt hlt), getElem?_update ha, if_neg hj]
        exact he
    · rw [hnone i a ha] at hd
      cases hd

end Backlog

end ZilkerSdk.Lib
