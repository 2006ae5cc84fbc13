import ZilkerSdk.Concurrent.DelayedTask

/-!
# Forced delayed tasks

`exceuteDelayTask` of `delayedTask.c` sets the state of a task to RUNNING and wakes its thread, so
that the callback is called at once.  A thread that has not begun yet sets the state to WAITING
when it begins, whatever it was: such a task has to wait for its delay all the same.
-/

namespace ZilkerSdk.Concurrent.DelayedTask

open Lib

variable {α : Type*}

/-- The task has been forced: if its thread is in the timed wait, it will find the state RUNNING. -/
def Task.Forced (task : Task α) : Prop :=
  match task.pc with
  | .created => False
  | .waits => task.state = .running
  | _ => True

/-- No cancel of the task is in time. -/
def Outcome.Refuses (t : Nat) : Outcome α → Prop
  | .canceled u stopped retVal => u = t → stopped = false ∧ retVal = none
  | _ => True

/-- At most two steps of the thread of the task, whatever the clock says, call the callback. -/
def CallsSoon (t : Nat) (s : State α) : Prop :=
  ∃ (moves : List Move) (s' : State α) (os : List (Outcome α)), moves.length ≤ 2 ∧
    run step s (moves.map (.thread t)) = some (s', os) ∧ ∃ arg, .invoked t arg ∈ os

/-- The task runs at once: nobody gets its argument back, it does not wait for its delay, and its
callback has been called or is about to be. -/
def RunsAtOnce (t : Nat) (s : State α) (os : List (Outcome α)) : Prop :=
  (∀ o ∈ os, o.Refuses t) ∧ (∃ task, s.objects[t]? = some task ∧ task.state ≠ .waiting) ∧
    ((∃ arg, .invoked t arg ∈ os) ∨ CallsSoon t s)

section

variable {t u : Nat} {task task' : Task α} {o : Outcome α} {s s' : State α} {event : Event α}

theorem Task.Forced.not_young (h : task.Forced) (hsound : task.Sound) :
    ¬ (task.state = .waiting ∨ task.state = .idle) := by
  intro hstate
  obtain hpc | hpc := hsound.young hstate
  · simp [Task.Forced, hpc] at h
  · simp only [Task.Forced, hpc] at h
    simp [h] at hstate

/-- Whatever a step does, a task that is forced stays forced, and it is not canceled. -/
theorem Changes.forced (h : Changes u task task' o) (hsound : task.Sound)
    (hforced : u = t → task.Forced) : (u = t → task'.Forced) ∧ o.Refuses t := by
  cases h with
  | cancel hstate =>
    have hother : u ≠ t := fun hu => (hforced hu).not_young hsound hstate
    exact ⟨fun hu => absurd hu hother, fun hu => absurd hu hother⟩
  | late => exact ⟨hforced, fun _ => ⟨rfl, rfl⟩⟩
  | execute hstate => exact ⟨fun hu => absurd hstate ((hforced hu).not_young hsound), trivial⟩
  | answer => exact ⟨hforced, trivial⟩
  | wait hpc hstate hagain =>
    refine ⟨fun hu => ?_, trivial⟩
    have := hforced hu
    obtain hpc | hpc := hpc
    · simp [Task.Forced, hpc] at this
    · simp [Task.Forced, hpc, hagain hpc] at this
  | _ => exact ⟨fun _ => trivial, trivial⟩

/-- The task is there, and it is forced. -/
structure Forced (t : Nat) (s : State α) : Prop where
  sound : Sound s
  listed : Listed s
  exists_task : t < s.objects.length
  forced : EachAt (fun u task => u = t → Task.Forced task) s.objects

theorem Forced.keeps (h : Forced t s) (hpositive : Positive s event)
    (hstep : step s event = some (s', o)) : Forced t s' ∧ o.Refuses t := by
  have hsound := (h.sound.step hstep).1
  have hlisted := h.listed.step hpositive hstep
  have hquiet : o.quiet = true → o.Refuses t := by
    intro hquiet
    cases o with
    | canceled => cases hquiet
    | _ => trivial
  obtain ⟨arg, -, rfl, ho⟩ | ⟨calls, rfl, ho⟩ | ⟨u, task, task', hobject, hchanges, hobjects, -⟩ :=
    step_cases hstep
  · refine ⟨⟨hsound, hlisted, ?_, h.forced.spawn fun hnew => ?_⟩, hquiet ho⟩
    · exact Nat.lt_of_lt_of_le h.exists_task (List.length_append ▸ Nat.le_add_right _ _)
    · exact absurd h.exists_task (hnew ▸ Nat.lt_irrefl _)
  · exact ⟨⟨hsound, hlisted, h.exists_task, h.forced⟩, hquiet ho⟩
  · obtain ⟨hforced, ho⟩ := hchanges.forced (h.sound u task hobject) (h.forced u task hobject)
    refine ⟨⟨hsound, hlisted, ?_, hobjects ▸ h.forced.update hobject hforced⟩, ho⟩
    rw [hobjects, List.length_set]
    exact h.exists_task

theorem run_thread {move : Move} (hobject : s.objects[t]? = some task)
    (hlive : t ∈ s.tasks ∨ t ∈ s.dropped)
    (hmove : runDelayTaskThread t task move = some (task', o)) :
    run step s [.thread t move] = some (s.setTask t task', [o]) := by
  simp [run, step, withTask, hobject, hlive, hmove]

theorem Forced.callsSoon (h : Forced t s) (hobject : s.objects[t]? = some task)
    (hspent : task.spent = false) : CallsSoon t s := by
  have hlive : t ∈ s.tasks ∨ t ∈ s.dropped := by
    left
    apply h.listed.live t task hobject
    intro hpc
    simp [Task.spent, hpc] at hspent
  have hforced := h.forced t task hobject rfl
  cases hpc : task.pc with
  | created => simp [Task.Forced, hpc] at hforced
  | waits =>
    have hstate : task.state = .running := by simpa [Task.Forced, hpc] using hforced
    have hwake :
        runDelayTaskThread t task (.wake false) = some ({ task with pc := .due }, .silent) := by
      simp [runDelayTaskThread, hpc, hstate, Task.afterWait]
    have hdue := (getElem?_update hobject { task with pc := .due } t).trans (if_pos rfl)
    exact ⟨[.wake false, .invoke], _, _, Nat.le_refl _,
      run_append (run_thread hobject hlive hwake) (run_thread hdue hlive rfl), _,
      .tail _ (.head _)⟩
  | due => exact ⟨[.invoke], _, _, Nat.le_succ 1, run_thread hobject hlive (if_pos hpc), _, .head _⟩
  | _ => simp [Task.spent, hpc] at hspent

theorem Forced.runsAtOnce {events : List (Event α)} {os : List (Outcome α)} (h : Forced t s)
    (hspent : s.spent t = 0) (hpositive : Guarded step Positive s events)
    (hrun : run step s events = some (s', os)) : RunsAtOnce t s' os := by
  obtain ⟨hend, -, hrefuses⟩ : Forced t s' ∧ _ := by
    apply run_outputs (Q := fun _ o => o.Refuses t) _ h hpositive hrun
    intro s event s' o h hcond hstep
    exact ⟨(h.keeps hcond hstep).1, (h.keeps hcond hstep).2, fun _ ho => ho⟩
  obtain ⟨task, hobject⟩ : ∃ task, s'.objects[t]? = some task :=
    ⟨_, List.getElem?_eq_getElem hend.exists_task⟩
  refine ⟨hrefuses, ⟨task, hobject, fun hstate => ?_⟩, ?_⟩
  · exact (hend.forced t _ hobject rfl).not_young (hend.sound t _ hobject) (.inl hstate)
  · have hcount : s'.spent t = s.spent t + os.countP (Outcome.spends t) :=
      run_countP (fun _ _ _ _ h hstep => ⟨(Sound.step h hstep).1, (h.step hstep).2.1 t⟩) h.sound
        hrun
    rw [hspent, State.spent, hobject] at hcount
    cases htask : task.spent with
    | false => exact .inr (hend.callsSoon hobject htask)
    | true =>
      -- the argument is spent, and no canceller has got it
      left
      simp only [htask, Bool.toNat_true] at hcount
      obtain ⟨o, ho, hspends⟩ :=
        List.countP_pos_iff.mp (by omega : 0 < os.countP (Outcome.spends t))
      have hrefused := hrefuses o ho
      cases o with
      | invoked u arg => exact ⟨arg, of_decide_eq_true hspends ▸ ho⟩
      | canceled u stopped retVal =>
        obtain ⟨hu, hstopped⟩ := Bool.and_eq_true_iff.mp hspends
        cases hstopped.symm.trans (hrefused (of_decide_eq_true hu)).1
      | _ => cases hspends

end

/-- Where `exceuteDelayTask` returns true for a task, the task runs at once in every run that
follows, as long as handles do not wrap around and fewer than 65536 tasks are listed, exactly if its
thread had begun before the call. -/
theorem forced_task_runs_iff {before : List (Event α)} {s s₁ : State α} {os : List (Outcome α)}
    {i t : Nat} {task : Task α} (hrun : run step noTasks before = some (s, os))
    (hpositive : Guarded step Positive noTasks before) (hcall : s.calls[i]? = some (.execute, t))
    (hobject : s.objects[t]? = some task) (hforce : step s (.enter i) = some (s₁, .answered true)) :
    (∀ after s₂ os', Guarded step Positive s₁ after → run step s₁ after = some (s₂, os') →
      RunsAtOnce t s₂ os') ↔ task.pc ≠ .created := by
  have hsound : Sound s :=
    run_invariant (fun _ _ _ _ h _ hstep => (Sound.step h hstep).1) sound_noTasks
      (guarded_true _ _ _) hrun
  have hlisted : Listed s :=
    run_invariant (fun _ _ _ _ h hcond hstep => h.step hcond hstep) listed_noTasks hpositive hrun
  obtain ⟨hlive, hyoung, rfl⟩ : (t ∈ s.tasks ∨ t ∈ s.dropped) ∧
      (task.state = .waiting ∨ task.state = .idle) ∧
        s₁ = State.setTask { s with calls := s.calls.eraseIdx i } t
          { task with state := .running } := by
    have hcalled := hforce
    simp only [step, hcall] at hcalled
    obtain ⟨task₀, task₁, hobject₀, hlive, hbody, rfl⟩ := withTask_eq_some hcalled
    cases hobject.symm.trans hobject₀
    simp only [call, finalizeTaskInternal, whileWaiting] at hbody
    split at hbody
    · cases hbody
      exact ⟨hlive, ‹_›, rfl⟩
    · cases hbody
  have hset := (getElem?_update hobject { task with state := .running } t).trans (if_pos rfl)
  constructor
  · -- the thread begins, and sets the state to WAITING
    intro hall hpc
    obtain ⟨-, ⟨task₂, hobject₂, hstate⟩, -⟩ := hall [.thread t (.start false)] _ _
      ⟨trivial, fun _ _ _ => trivial⟩ (run_thread hset hlive (if_pos hpc))
    cases ((getElem?_update hset _ t).trans (if_pos rfl)).symm.trans hobject₂
    exact hstate rfl
  · intro hpc after s₂ os' hguarded hafter
    -- the thread has begun, so it is in its timed wait
    have hwaits : task.pc = .waits := ((hsound t task hobject).young hyoung).resolve_left hpc
    have hpositive : Positive s (.enter i) := trivial
    refine Forced.runsAtOnce ⟨(hsound.step hforce).1, hlisted.step hpositive hforce, ?_, ?_⟩ ?_
      hguarded hafter
    · exact (List.getElem?_eq_some_iff.mp hset).1
    · rintro u task₂ hobject₂ rfl
      cases hset.symm.trans hobject₂
      simp [Task.Forced, hwaits]
    · simp only [State.spent, State.setTask, hset]
      simp [Task.spent, hwaits]

/-- The thread of the task waits, and the task is forced. -/
theorem forced_task_runs_waiting : ∃ s os,
    run step noTasks [.schedule (some 7), .thread 0 (.start false), .find .execute 1, .enter 0] =
      some (s, os) ∧ CallsSoon 0 s := by
  refine ⟨_, _, rfl, ?_⟩
  have hrun : run step noTasks [.schedule (some 7), .thread 0 (.start false), .find .execute 1] =
      some _ := rfl
  have hpositive : Guarded step Positive (noTasks : State Nat)
      [.schedule (some 7), .thread 0 (.start false), .find .execute 1] :=
    ⟨⟨(by decide : (1 : UInt32) ≠ 0), (by decide : 1 < 65536)⟩,
      fun _ _ _ => ⟨trivial, fun _ _ _ => ⟨trivial, fun _ _ _ => trivial⟩⟩⟩
  have hall := (forced_task_runs_iff (i := 0) hrun hpositive rfl rfl rfl).mpr Pc.noConfusion
  obtain ⟨-, -, hcalled | hsoon⟩ := hall [] _ _ trivial rfl
  · exact nomatch hcalled
  · exact hsoon

/-- A task is forced before its thread begins: the thread waits, and a canceller stops the task. -/
theorem forced_task_canceled :
    (run step noTasks [.schedule (some 7), .find .execute 1, .enter 0, .thread 0 (.start false),
      .find .cancel 1, .enter 0]).map Prod.snd =
    some [.scheduled 1, .silent, .answered true, .silent, .silent, .canceled 0 true (some 7)] := by
  decide +kernel

end ZilkerSdk.Concurrent.DelayedTask
