import ZilkerSdk.Concurrent.DelayedTask

/-!
# Handles of delayed tasks

`assignHandle` of `delayedTask.c` adds one to the handle of the last task in the list, and
begins with one when the list is empty.  Tasks that have finished are not in the list, so the
handle of the task that was scheduled last is given again once that task is gone.  The list counts
its tasks with 16 bits: one with 65536 tasks is taken for empty.
-/

namespace ZilkerSdk.Concurrent.DelayedTask

open Lib List

variable {α : Type*} {s s' : State α} {event : Event α} {o : Outcome α}

/-- The handles of all tasks that were ever scheduled, in the order of the calls. -/
def State.handles (s : State α) : List UInt32 :=
  s.objects.map Task.handle

/-- The handles of `n` tasks that are numbered from one on. -/
def numbers (n : Nat) : List UInt32 :=
  (List.range n).map fun t => UInt32.ofNat (t + 1)

/-- When a task is scheduled, the task that was scheduled last is still listed, and fewer than 65536
tasks are. -/
def LastListed (s : State α) : Event α → Prop
  | .schedule _ => s.tasks.length < 65536 ∧ (s.handles = [] ∨ s.handles.length - 1 ∈ s.tasks)
  | _ => True

instance (s : State α) (event : Event α) : Decidable (LastListed s event) := by
  delta LastListed
  split <;> infer_instance

/-- What a step does to the handles and to the list. -/
theorem step_handles (h : step s event = some (s', o)) :
    (∃ arg, event = .schedule arg ∧ s' = scheduleDelayTask s arg ∧
      s'.handles = s.handles ++ [assignHandle s] ∧ s'.tasks = s.tasks ++ [s.handles.length]) ∨
    (s'.handles = s.handles ∧ s'.tasks.Sublist s.tasks ∧ (s.Counted → s'.Counted)) := by
  obtain ⟨arg, rfl, rfl, -⟩ | ⟨calls, rfl, -⟩ |
    ⟨t, task, task', hobject, hchanges, hobjects, htasks⟩ := step_cases h
  · exact .inl ⟨arg, rfl, rfl, map_append, by rw [State.handles, length_map]; rfl⟩
  · exact .inr ⟨rfl, List.Sublist.refl _, id⟩
  · refine .inr ⟨?_, ?_⟩
    · obtain ⟨hlt, rfl⟩ := List.getElem?_eq_some_iff.mp hobject
      rw [State.handles, hobjects, map_set, hchanges.handle, ← map_set, set_getElem_self]
      rfl
    · exact list_of_change htasks

/-- The list follows the order of the calls, and the handles are the numbers from one on. -/
structure InOrder (s : State α) : Prop where
  listed : s.tasks.Sublist (List.range s.handles.length)
  numbered : s.handles = numbers s.handles.length
  counted : s.Counted

/-- A handle was given twice. -/
def Repeats (s : State α) : Prop :=
  ¬ s.handles.Nodup

section

variable (h : InOrder s)
include h

theorem InOrder.handleOf_eq {t : Nat} (ht : t < s.handles.length) :
    s.handleOf t = some (UInt32.ofNat (t + 1)) := by
  rw [State.handleOf, ← getElem?_map]
  show s.handles[t]? = _
  rw [h.numbered, numbers, getElem?_map, getElem?_range ht]
  rfl

theorem InOrder.mem_handles {t : Nat} (ht : t < s.handles.length) :
    UInt32.ofNat (t + 1) ∈ s.handles := by
  have hhandle := h.handleOf_eq ht
  rw [State.handleOf, ← getElem?_map] at hhandle
  exact mem_of_getElem? hhandle

/-- The next handle is the next number where the condition is met, and an earlier one elsewhere. -/
theorem InOrder.assignHandle_eq (arg : Option α) : ∃ k ≤ s.handles.length,
    assignHandle s = UInt32.ofNat (k + 1) ∧
      (LastListed s (.schedule arg) ↔ k = s.handles.length) := by
  have hlisted := h.listed
  obtain ⟨hle, hsize⟩ := h.counted
  by_cases hzero : s.size = 0
  · -- the list is taken for empty, and the handle is one
    refine ⟨0, Nat.zero_le _, if_pos hzero, fun ⟨hroom, hlast⟩ => ?_, fun hnone => ?_⟩
    · have hempty : s.tasks = [] := length_eq_zero_iff.mp (by omega)
      obtain hnil | hmem := hlast
      · rw [hnil]
        rfl
      · rw [hempty] at hmem
        cases hmem
    · rw [← hnone] at hlisted
      rw [LastListed, eq_nil_of_sublist_nil hlisted]
      exact ⟨Nat.two_pow_pos 16, .inl (length_eq_zero_iff.mp hnone.symm)⟩
  · -- the counter is right, and the handle is the one after that of the last task
    have hroom : s.tasks.length < 65536 := by omega
    have hne : s.tasks ≠ [] := fun hnil => hzero (by rw [hsize, hnil]; rfl)
    obtain ⟨init, t, heq⟩ := (eq_nil_or_concat' s.tasks).resolve_left hne
    have hmem : t ∈ s.tasks := heq ▸ mem_append_right _ mem_cons_self
    have ht : t < s.handles.length := mem_range.mp (hlisted.subset hmem)
    refine ⟨t + 1, ht, ?_, fun ⟨_, hlast⟩ => ?_, fun hk => ⟨hroom, .inr ?_⟩⟩
    · rw [h.counted.assignHandle_concat hroom heq (h.handleOf_eq ht)]
      exact (UInt32.ofNat_add _ 1).symm
    · -- the list is ordered, so the task that was scheduled last can only be its last one
      have hsorted := pairwise_lt_range.sublist hlisted
      rw [heq, pairwise_append] at hsorted
      have hlast := hlast.resolve_left (ne_nil_of_length_pos (Nat.zero_lt_of_lt ht))
      rw [heq, mem_append, mem_singleton] at hlast
      obtain hold | hlast := hlast
      · have := hsorted.2.2 _ hold t mem_cons_self
        omega
      · omega
    · rw [← hk]
      exact hmem

theorem InOrder.repeats (hcond : ¬ LastListed s event) (hstep : step s event = some (s', o)) :
    Repeats s' := by
  intro hnodup
  cases event with
  | schedule arg =>
    -- the handle that is given is a number from before
    obtain ⟨_, -, -, hhandles, -⟩ | ⟨hhandles, -⟩ := step_handles hstep
    · obtain ⟨k, hle, hassign, hk⟩ := h.assignHandle_eq arg
      have hlt : k < s.handles.length := Nat.lt_of_le_of_ne hle fun heq => hcond (hk.mpr heq)
      rw [hhandles, nodup_append] at hnodup
      exact hnodup.2.2 _ (h.mem_handles hlt) _ mem_cons_self hassign.symm
    · cases hstep
      have := congrArg length hhandles
      simp [State.handles, scheduleDelayTask] at this
  | _ => exact hcond trivial

theorem InOrder.step (hcond : LastListed s event) (hstep : step s event = some (s', o)) :
    InOrder s' := by
  obtain ⟨arg, rfl, hs', hhandles, htasks⟩ | ⟨hhandles, htasks, hcounted⟩ := step_handles hstep
  · obtain ⟨k, -, hassign, hk⟩ := h.assignHandle_eq arg
    refine ⟨?_, ?_, hs' ▸ h.counted.schedule arg hcond.1⟩
    · rw [hhandles, htasks, length_append, length_singleton, range_succ]
      exact h.listed.append (List.Sublist.refl _)
    · rw [hhandles, length_append, length_singleton, numbers, range_succ, map_append, hassign,
        hk.mp hcond]
      exact congrArg (· ++ _) h.numbered
  · exact ⟨hhandles ▸ htasks.trans h.listed, hhandles ▸ h.numbered, hcounted h.counted⟩

end

/-- Handles are never taken back. -/
theorem Repeats.step (h : Repeats s) (hstep : step s event = some (s', o)) : Repeats s' := by
  intro hnodup
  obtain ⟨_, -, -, heq, -⟩ | ⟨heq, -⟩ := step_handles hstep
  · exact h (hnodup.sublist (heq ▸ sublist_append_left _ _))
  · exact h (heq ▸ hnodup)

theorem nodup_numbers {n : Nat} (h : n < 4294967296) : (numbers n).Nodup := by
  apply nodup_range.map_on
  intro t ht u hu heq
  rw [mem_range] at ht hu
  have := congrArg UInt32.toNat heq
  rw [UInt32.toNat_ofNat', UInt32.toNat_ofNat', Nat.mod_eq_of_lt (by omega),
    Nat.mod_eq_of_lt (by omega)] at this
  omega

/-- In every run with fewer than `2 ^ 32 - 1` tasks the handles are all different exactly if,
whenever a task is scheduled, the task that was scheduled last is still listed and fewer than 65536
tasks are.  Then no handle leads to another task than its own. -/
theorem handles_distinct_iff {events : List (Event α)} {os : List (Outcome α)}
    (hrun : run step noTasks events = some (s, os)) (hcount : s.handles.length < UInt32.size - 1) :
    (s.handles.Nodup ↔ Guarded step LastListed noTasks events) ∧
      (s.handles.Nodup → ∀ t u handle, s.handleOf t = some handle →
        getDelayedTask s handle = some u → u = t) := by
  have hinit : InOrder (noTasks : State α) := ⟨List.Sublist.refl _, rfl, Nat.zero_le _, rfl⟩
  refine ⟨⟨fun hnodup => ?_, fun hguarded => ?_⟩, fun hnodup t u handle ht hu => ?_⟩
  · -- a run that breaks the condition repeats a handle there, and for good
    by_contra hguarded
    have hrepeats : Repeats s := run_of_not_guarded
      (fun _ _ _ _ h hcond hstep => InOrder.step h hcond hstep)
      (fun _ _ _ _ h hcond hstep => h.repeats hcond hstep)
      (fun _ _ _ _ h hstep => h.step hstep) hinit hguarded hrun
    exact hrepeats hnodup
  · have hend : InOrder s :=
      run_invariant (fun _ _ _ _ h hcond hstep => InOrder.step h hcond hstep) hinit hguarded hrun
    exact hend.numbered ▸ nodup_numbers (Nat.lt_succ_of_lt hcount)
  · have hfound : s.handleOf u = some handle := of_decide_eq_true (find?_some hu :)
    rw [State.handleOf, ← getElem?_map] at ht hfound
    exact (List.getElem?_inj (List.getElem?_eq_some_iff.mp hfound).1 hnodup).mp
      (hfound.trans ht.symm)

/-- A task is canceled and gone, while the one that was scheduled last waits. -/
def firstGone : List (Event Nat) :=
  [.schedule (some 7), .schedule (some 8), .find .cancel 1, .enter 0, .thread 0 (.start false),
    .cleanup 0, .schedule (some 9)]

theorem handles_distinct_iff_firstGone : ∃ s os, run step noTasks firstGone = some (s, os) ∧
    s.handles = [1, 2, 3] ∧ s.tasks = [1, 2] ∧ s.handles.Nodup := by
  have hrun : run step noTasks firstGone = some _ := rfl
  exact ⟨_, _, hrun, rfl, rfl, (handles_distinct_iff hrun (by decide)).1.mpr (by decide +kernel)⟩

/-- A canceller with the handle of a task that has finished stops another task. -/
theorem other_task_canceled :
    (run step noTasks [.schedule (some 7), .thread 0 (.start true), .thread 0 .invoke,
      .thread 0 .empty, .thread 0 .finish, .cleanup 0, .schedule (some 8), .find .cancel 1,
      .enter 0]).map Prod.snd =
    some [.scheduled 1, .silent, .invoked 0 (some 7), .silent, .silent, .silent, .scheduled 1,
      .silent, .canceled 1 true (some 8)] := by
  decide +kernel

end ZilkerSdk.Concurrent.DelayedTask
