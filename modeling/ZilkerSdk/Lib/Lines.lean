import Mathlib.Data.List.Nodup

/-!
# Requests that wait in line

Requests are put at the end of the line of their destination, taken from its front and started,
or they are withdrawn.  `InLine` says that what has been started, what has been taken and what
still waits for one destination come in this order in the list of everything that was queued, and
that nothing queued is lost.
-/

namespace ZilkerSdk.Lib

open List

variable {α δ : Type*} [DecidableEq δ]

/-- The members of a list that are for one destination. -/
def forDest (dest : α → Option δ) (d : δ) (l : List α) : List α := l.filter fun a => dest a = some d

variable {l : List α}

theorem mem_forDest {dest : α → Option δ} {d : δ} {a : α} :
    a ∈ forDest dest d l ↔ a ∈ l ∧ dest a = some d := by
  simp [forDest]

theorem forDest_append (dest : α → Option δ) (d : δ) (l l' : List α) :
    forDest dest d (l ++ l') = forDest dest d l ++ forDest dest d l' :=
  filter_append ..

theorem forDest_singleton (dest : α → Option δ) (d : δ) (a : α) :
    forDest dest d [a] = if dest a = some d then [a] else [] := by
  simp [forDest, filter_cons]

theorem forDest_congr {dest dest' : α → Option δ} (h : ∀ a ∈ l, dest' a = dest a) (d : δ) :
    forDest dest' d l = forDest dest d l :=
  filter_congr fun a ha => by rw [h a ha]

/-- What was queued, and where it is: waiting in the line of its destination, taken from there,
started, or gone. -/
structure InLine (dest : α → Option δ) (waiting : δ → List α) (taken started gone queued : List α) :
    Prop where
  nodup : queued.Nodup
  known : ∀ a ∈ started ++ taken, a ∈ queued
  line : ∀ d, (forDest dest d (started ++ taken) ++ waiting d).Sublist (forDest dest d queued)
  kept : ∀ a ∈ queued, (∃ d, dest a = some d ∧ a ∈ waiting d) ∨ a ∈ taken ∨ a ∈ started ∨ a ∈ gone

variable {dest : α → Option δ} {waiting waiting' : δ → List α}
  {taken started gone queued : List α} {a b : α} {d : δ}

theorem inLine_nil (dest : α → Option δ) : InLine dest (fun _ => []) [] [] [] [] where
  nodup := nodup_nil
  known := nofun
  line d := by simp [forDest]
  kept := nofun

section

variable (h : InLine dest waiting taken started gone queued)
include h

theorem InLine.mem_waiting (ha : a ∈ waiting d) : a ∈ queued ∧ dest a = some d :=
  mem_forDest.mp ((h.line d).subset (mem_append_right _ ha))

/-- Where a request goes is read for those that were queued only. -/
theorem InLine.congr {dest' : α → Option δ} (hdest : ∀ a ∈ queued, dest' a = dest a) :
    InLine dest' waiting taken started gone queued where
  __ := h
  line e := by
    rw [forDest_congr hdest, forDest_congr fun a ha => hdest a (h.known a ha)]
    exact h.line e
  kept a ha := by
    rw [hdest a ha]
    exact h.kept a ha

theorem InLine.mono {gone' : List α} (hgone : gone ⊆ gone') :
    InLine dest waiting taken started gone' queued where
  __ := h
  kept a ha := by
    rcases h.kept a ha with hw | ht | hs | hg
    · exact .inl hw
    · exact .inr (.inl ht)
    · exact .inr (.inr (.inl hs))
    · exact .inr (.inr (.inr (hgone hg)))

theorem InLine.enqueue (hdest : dest a = some d) (hnew : a ∉ queued)
    (hwaiting : ∀ e, waiting' e = if e = d then waiting e ++ [a] else waiting e) :
    InLine dest waiting' taken started gone (queued ++ [a]) where
  nodup := by
    rw [← concat_eq_append]
    exact h.nodup.concat hnew
  known b hb := mem_append_left _ (h.known b hb)
  line e := by
    rw [forDest_append _ _ queued, forDest_singleton, hwaiting]
    by_cases he : e = d
    · subst he
      rw [if_pos rfl, if_pos hdest, ← append_assoc]
      exact (h.line e).append_right [a]
    · rw [if_neg he, if_neg (by simp [hdest, Ne.symm he]), append_nil]
      exact h.line e
  kept b hb := by
    have hold : ∀ e, b ∈ waiting e → b ∈ waiting' e := by
      intro e hbe
      rw [hwaiting]
      split
      · exact mem_append_left _ hbe
      · exact hbe
    rcases mem_append.mp hb with hb | hb
    · rcases h.kept b hb with ⟨e, hbdest, hbe⟩ | hrest
      · exact .inl ⟨e, hbdest, hold e hbe⟩
      · exact .inr hrest
    · obtain rfl := mem_singleton.mp hb
      exact .inl ⟨d, hdest, by rw [hwaiting, if_pos rfl]; simp⟩

theorem InLine.withdraw (hwaiting : ∀ e, (waiting' e).Sublist (waiting e))
    (hgone : ∀ e, ∀ b ∈ waiting e, b ∈ waiting' e ∨ b ∈ gone) :
    InLine dest waiting' taken started gone queued where
  __ := h
  line e := ((hwaiting e).append_left _).trans (h.line e)
  kept b hb := by
    rcases h.kept b hb with ⟨e, hdest, hbe⟩ | hrest
    · rcases hgone e b hbe with hstill | hb
      · exact .inl ⟨e, hdest, hstill⟩
      · exact .inr (.inr (.inr hb))
    · exact .inr hrest

theorem InLine.take {rest : List α} (hfront : waiting d = a :: rest)
    (hwaiting : ∀ e, waiting' e = if e = d then rest else waiting e) :
    InLine dest waiting' (taken ++ [a]) started gone queued := by
  obtain ⟨hqueued, hdest⟩ := h.mem_waiting (hfront ▸ mem_cons_self : a ∈ waiting d)
  refine ⟨h.nodup, ?_, ?_, ?_⟩
  · intro b hb
    rw [← append_assoc, mem_append, mem_singleton] at hb
    rcases hb with hb | rfl
    · exact h.known b hb
    · exact hqueued
  · intro e
    have hline := h.line e
    rw [← append_assoc, forDest_append, forDest_singleton, hwaiting]
    -- `a` moves from the front of its line to the end of what was taken
    by_cases he : e = d
    · subst he
      rw [if_pos hdest, if_pos rfl, append_assoc, singleton_append, ← hfront]
      exact hline
    · rw [if_neg (by simp [hdest, Ne.symm he]), if_neg he, append_nil]
      exact hline
  · intro b hb
    rcases h.kept b hb with ⟨e, hbdest, hbe⟩ | ht | hrest
    · by_cases hba : b = a
      · exact .inr (.inl (by simp [hba]))
      · refine .inl ⟨e, hbdest, ?_⟩
        rw [hwaiting]
        split
        · rename_i he
          rw [he, hfront, mem_cons] at hbe
          exact hbe.resolve_left hba
        · exact hbe
    · exact .inr (.inl (mem_append_left _ ht))
    · exact .inr (.inr hrest)

end

/-- A request that was taken is not started after all. -/
theorem InLine.drop (h : InLine dest waiting (a :: taken) started gone queued) (hgone : a ∈ gone) :
    InLine dest waiting taken started gone queued where
  nodup := h.nodup
  known b hb := h.known b (by
    rcases mem_append.mp hb with hb | hb
    · exact mem_append_left _ hb
    · exact mem_append_right _ (mem_cons_of_mem _ hb))
  line e := by
    refine List.Sublist.trans (List.Sublist.append_right ?_ _) (h.line e)
    exact ((sublist_cons_self a taken).append_left started).filter _
  kept b hb := by
    rcases h.kept b hb with hw | ht | hrest
    · exact .inl hw
    · rcases mem_cons.mp ht with rfl | ht
      · exact .inr (.inr (.inr hgone))
      · exact .inr (.inl ht)
    · exact .inr (.inr hrest)

theorem InLine.start (h : InLine dest waiting (a :: taken) started gone queued) :
    InLine dest waiting taken (started ++ [a]) gone queued where
  nodup := h.nodup
  known b hb := h.known b (by simpa using hb)
  line e := by simpa using h.line e
  kept b hb := by
    rcases h.kept b hb with hw | ht | hs | hg
    · exact .inl hw
    · rcases mem_cons.mp ht with rfl | ht
      · exact .inr (.inr (.inl (by simp)))
      · exact .inr (.inl ht)
    · exact .inr (.inr (.inl (mem_append_left _ hs)))
    · exact .inr (.inr (.inr hg))

/-! ## Order -/

/-- Requests to one destination are started in the order of their queueing. -/
theorem InLine.started_sublist (h : InLine dest waiting taken started gone queued) (d : δ) :
    (forDest dest d started).Sublist (forDest dest d queued) := by
  have hline := h.line d
  rw [forDest_append, append_assoc] at hline
  exact (sublist_append_left _ _).trans hline

/-- Without repetitions, two members come in one order only. -/
theorem not_sublist_swap (hnodup : l.Nodup) (h : [a, b].Sublist l) : ¬ [b, a].Sublist l := by
  induction l with
  | nil => cases h
  | cons c l ih =>
    obtain ⟨hc, hl⟩ := nodup_cons.mp hnodup
    intro hswap
    cases h with
    | cons _ h =>
      cases hswap with
      | cons _ hswap => exact ih hl h hswap
      | cons_cons _ hswap => exact hc (h.subset (by simp))
    | cons_cons _ h =>
      cases hswap with
      | cons _ hswap => exact hc (hswap.subset (by simp))
      | cons_cons _ hswap => exact hc (h.subset (by simp))

/-- When a request is next to be started, every earlier one to the same destination has been
started or is gone. -/
theorem InLine.earlier (h : InLine dest waiting (b :: taken) started gone queued)
    (hb : dest b = some d) (ha : dest a = some d) (hbefore : [a, b].Sublist queued) :
    a ∈ started ∨ a ∈ gone := by
  have hline : (forDest dest d (b :: taken) ++ waiting d).Sublist queued := by
    have := h.line d
    rw [forDest_append, append_assoc] at this
    exact ((sublist_append_right _ _).trans this).trans filter_sublist
  have hfirst : forDest dest d (b :: taken) = b :: forDest dest d taken := by simp [forDest, hb]
  rw [hfirst, cons_append] at hline
  -- whatever is taken or waits comes after `b`
  have hafter : a ∈ forDest dest d taken ++ waiting d → False := by
    intro hmem
    apply not_sublist_swap h.nodup hbefore
    exact ((singleton_sublist.mpr hmem).cons_cons b).trans hline
  rcases h.kept a (hbefore.subset (by simp)) with ⟨e, he, hw⟩ | ht | hs | hg
  · cases ha.symm.trans he
    exact absurd (mem_append_right _ hw) hafter
  · rcases mem_cons.mp ht with rfl | ht
    · have := hbefore.nodup h.nodup
      simp at this
    · exact absurd (mem_append_left _ (mem_forDest.mpr ⟨ht, ha⟩)) hafter
  · exact .inl hs
  · exact .inr hg

end ZilkerSdk.Lib
