import ZilkerSdk.Concurrent.ThreadPool.Model

/-!
# Is there a worker for every task?

A pool with at least one worker that never retires always has somebody for a queued
task.  With `minThreads = 0` the last worker may retire as well.  Between the moment its
wait ends without a task and the moment it retires, a task can be added; if the pool
has all the workers it may have, no worker is created for it, and if then all of them
retire, the task stays in the queue until the next one is added.
-/

namespace ZilkerSdk.Concurrent.ThreadPool

open Lib List

/-- While no task is being added, a task in the queue has a live worker. -/
def Served (s : State) : Prop :=
  s.pending = [] → s.holder = none → s.queue ≠ [] → s.workers ≠ []

/-- The only worker retires when the queue is empty. -/
def KeepsLast (s : State) : Event → Prop
  | .worker _ .retire => s.minThreads = 0 → s.threadCount = 1 → s.queue = []
  | _ => True

instance (s : State) (event : Event) : Decidable (KeepsLast s event) := by
  delta KeepsLast
  split <;> infer_instance

section

variable {s s' : State} {event : Event}

theorem step_limits {o : Unit} (h : step s event = some (s', o)) :
    s'.minThreads = s.minThreads ∧ s'.maxThreads = s.maxThreads := by
  obtain ⟨-, rfl⟩ | ⟨i, move, worker, -, -, hmoves⟩ | hadds := step_cases h
  · exact ⟨rfl, rfl⟩
  · cases hmoves <;> exact ⟨rfl, rfl⟩
  · cases hadds <;> exact ⟨rfl, rfl⟩

theorem Sound.length_workers (h : Sound s) : s.workers.length = s.threadCount := by
  rw [← length_map Worker.offset, h.offsets, length_range]

/-- A pool whose first worker never retires. -/
theorem Sound.served (h : Sound s) (hmin : 1 ≤ s.minThreads) : Served s := by
  intro _ _ _ hnone
  have hlength := h.length_workers
  have hleast := h.least
  rw [hnone, length_nil] at hlength
  omega

/-- There is a worker for a task in the queue, or one is about to be created. -/
structure Attended (s : State) : Prop where
  sound : Sound s
  room : 1 ≤ s.maxThreads
  attended : s.queue ≠ [] → s.threadCount ≠ 0 ∨ s.holder = some .pushed

variable (h : Attended s)
include h

theorem Attended.served : Served s := by
  intro _ hfree hqueue hnone
  have hlength := h.sound.length_workers
  rw [hnone, length_nil] at hlength
  obtain hcount | hpushed := h.attended hqueue
  · exact hcount hlength.symm
  · rw [hfree] at hpushed
    cases hpushed

/-- The worker that moves is there for the queue, unless it is the last one and retires. -/
theorem Attended.moves {i : Nat} {worker : Worker} {move : Move}
    (hkeeps : KeepsLast s (.worker i move)) (hi : s.workers[i]? = some worker)
    (hmoves : Moves s i worker move s') :
    s'.queue ≠ [] → s'.threadCount ≠ 0 ∨ s'.holder = some .pushed := by
  have hlive : s.threadCount ≠ 0 := by
    rw [← h.sound.length_workers]
    exact Nat.pos_iff_ne_zero.mp (length_pos_of_mem (mem_of_getElem? hi))
  cases hmoves with
  | retire hpc hfree hlast =>
    unfold retires at hlast
    rw [Bool.and_eq_true, decide_eq_true_iff, decide_eq_true_iff] at hlast
    intro hqueue
    left
    show s.threadCount - 1 ≠ 0
    intro hnone
    exact hqueue (hkeeps (by omega) (by omega))
  | _ => exact fun _ => .inl hlive

/-- A call that has pushed its task creates a worker if there is none. -/
theorem Attended.adds (hadds : Adds s event s') :
    s'.queue ≠ [] → s'.threadCount ≠ 0 ∨ s'.holder = some .pushed := by
  have hworker : s.holder ≠ some .pushed → s.queue ≠ [] → s.threadCount ≠ 0 := by
    intro hnot hqueue
    exact (h.attended hqueue).resolve_right hnot
  cases hadds with
  | lock _ hfree =>
    refine fun hqueue => .inl (hworker ?_ hqueue)
    rw [hfree]
    exact (Option.some_ne_none _).symm
  | push _ _ => exact fun _ => .inr rfl
  | wait hholder | reject hholder =>
    refine fun hqueue => .inl (hworker ?_ hqueue)
    rw [hholder]
    exact fun heq => Adder.noConfusion (Option.some.inj heq)
  | grow _ _ => exact fun _ => .inl (Nat.succ_ne_zero _)
  | full _ hroom =>
    refine fun _ => .inl fun hnone => hroom ?_
    -- without a worker nobody is active
    have hlength := h.sound.length_workers
    have hactive : s.active ≤ s.workers.length := h.sound.counted ▸ countP_le_length
    have hroom := h.room
    have hnone' : s.threadCount = 0 := hnone
    omega

/-- A task in the queue has a worker unless the last worker retires at the wrong time. -/
theorem Attended.step {o : Unit} (hkeeps : KeepsLast s event)
    (hstep : step s event = some (s', o)) : Attended s' := by
  refine ⟨h.sound.step hstep, (step_limits hstep).2 ▸ h.room, ?_⟩
  obtain ⟨-, rfl⟩ | ⟨i, move, worker, rfl, hi, hmoves⟩ | hadds := step_cases hstep
  · exact h.attended
  · exact h.moves hkeeps hi hmoves
  · exact h.adds hadds

end

/-! ## A pool that may lose all its workers -/

/-- Workers that have found nothing to do. -/
def parked (n : Nat) : List Worker :=
  (List.range n).map fun offset => ⟨offset, .empty⟩

/-- A pool without a minimum whose `n` workers all have found nothing to do. -/
def parkedPool (maxThreads capacity n : Nat) (queue : List Nat) (calls : Nat)
    (log : List Nat) : State where
  minThreads := 0
  maxThreads := maxThreads
  capacity := capacity
  queue := queue
  threadCount := n
  active := 0
  workers := parked n
  pending := []
  holder := none
  calls := calls
  ran := log
  released := log

/-- A task is added, and the worker created for it runs it and waits in vain for another. -/
def round (n task : Nat) : List Event :=
  [.call, .lock task, .push, .grow, .worker n .pop, .worker n .activate, .worker n .run,
    .worker n .release, .worker n .deactivate, .worker n .wait, .worker n .timeout]

theorem parked_succ (n : Nat) : parked (n + 1) = parked n ++ [⟨n, .empty⟩] := by
  simp [parked, range_succ]

theorem length_parked (n : Nat) : (parked n).length = n := by
  simp [parked]

theorem getElem?_parked (n : Nat) (worker : Worker) :
    (parked n ++ [worker])[n]? = some worker := by
  rw [getElem?_append_right (Nat.le_of_eq (length_parked n)), length_parked, Nat.sub_self]
  rfl

theorem set_parked (n : Nat) (worker worker' : Worker) :
    (parked n ++ [worker]).set n worker' = parked n ++ [worker'] := by
  rw [set_append_right _ _ (Nat.le_of_eq (length_parked n)), length_parked, Nat.sub_self]
  rfl

theorem eraseIdx_parked (n : Nat) (worker : Worker) :
    (parked n ++ [worker]).eraseIdx n = parked n := by
  rw [eraseIdx_append_of_length_le (Nat.le_of_eq (length_parked n)), length_parked, Nat.sub_self]
  exact append_nil _

variable {capacity maxThreads n task : Nat} {log : List Nat}

theorem run_round (hn : n < maxThreads) (hroom : 0 < capacity) :
    run step (parkedPool maxThreads capacity n [] task log) (round n task) =
      some (parkedPool maxThreads capacity (n + 1) [] (task + 1) (task :: log),
        List.replicate 11 ()) := by
  have hpos : 0 < maxThreads := Nat.zero_lt_of_lt hn
  simp [round, run, step, parkedPool, threadPoolAddTask, addWorkerThread, runWorker,
    State.setPc, parked_succ, getElem?_parked, set_parked, hn, hpos, hroom]

/-- The pool can get all the workers it may have, with nothing to do for any of them. -/
theorem run_rounds (hn : n ≤ maxThreads) (hroom : 0 < capacity) :
    ∃ events log os, run step (freshPool 0 maxThreads capacity) events =
      some (parkedPool maxThreads capacity n [] n log, os) := by
  induction n with
  | zero => exact ⟨[], [], [], rfl⟩
  | succ n ih =>
    obtain ⟨events, log, os, hrun⟩ := ih (Nat.le_of_lt hn)
    exact ⟨events ++ round n n, n :: log, _, run_append hrun (run_round hn hroom)⟩

/-- A task that comes now gets no worker of its own. -/
theorem run_add (hroom : 0 < capacity) :
    run step (parkedPool maxThreads capacity maxThreads [] task log)
        [.call, .lock task, .push, .grow] =
      some (parkedPool maxThreads capacity maxThreads [task] (task + 1) log,
        List.replicate 4 ()) := by
  simp [run, step, parkedPool, threadPoolAddTask, hroom]

/-- All workers retire, whatever is in the queue. -/
theorem run_retire {calls : Nat} {queue : List Nat} (n : Nat) :
    ∃ events os, run step (parkedPool maxThreads capacity n queue calls log) events =
      some (parkedPool maxThreads capacity 0 queue calls log, os) := by
  induction n with
  | zero => exact ⟨[], [], rfl⟩
  | succ n ih =>
    obtain ⟨events, os, hrun⟩ := ih
    refine ⟨.worker n .retire :: events, () :: os, run_cons_eq_some.mpr ⟨_, _, _, ?_, hrun, rfl⟩⟩
    simp [step, parkedPool, runWorker, retires, State.remove, parked_succ, getElem?_parked,
      eraseIdx_parked]

/-- Some run of a pool without a minimum leaves a task in the queue and nobody to run it. -/
theorem exists_stranded (hroom : 0 < capacity) :
    ∃ events s os, run step (freshPool 0 maxThreads capacity) events = some (s, os) ∧
      ¬ Served s := by
  obtain ⟨events, log, os, hrun⟩ := run_rounds (Nat.le_refl maxThreads) hroom
  obtain ⟨events', os', hretire⟩ := run_retire maxThreads
  refine ⟨_, _, _, run_append hrun (run_append (run_add hroom) hretire), fun hserved => ?_⟩
  exact hserved rfl rfl (cons_ne_nil _ _) rfl

/-! ## The pools that serve every task -/

section

variable {minThreads maxThreads maxQueueSize : Nat} {s₀ : State}

theorem threadPoolCreate_eq (h : threadPoolCreate minThreads maxThreads maxQueueSize = some s₀) :
    ∃ capacity, 0 < capacity ∧ s₀ = freshPool minThreads maxThreads capacity := by
  unfold threadPoolCreate at h
  split at h
  · cases h
  · refine ⟨_, ?_, (Option.some.inj h).symm⟩
    split
    · exact Nat.succ_pos _
    · rename_i hsize
      exact Nat.pos_of_ne_zero hsize

theorem run_sound (hcreate : threadPoolCreate minThreads maxThreads maxQueueSize = some s₀)
    {events : List Event} {s : State} {os : List Unit}
    (hrun : run step s₀ events = some (s, os)) :
    Sound s ∧ s.minThreads = minThreads ∧ s.maxThreads = maxThreads := by
  obtain ⟨capacity, -, rfl⟩ := threadPoolCreate_eq hcreate
  apply run_invariant _ ⟨threadPoolCreate_sound hcreate, rfl, rfl⟩ (guarded_true step _ events) hrun
  intro s event s' o h _ hstep
  obtain ⟨hmin, hmax⟩ := step_limits hstep
  exact ⟨h.1.step hstep, hmin.trans h.2.1, hmax.trans h.2.2⟩

end

/-- A task is added while the only worker of the pool is about to retire. -/
def lateTask : List Event :=
  round 0 0 ++ [.call, .lock 1, .push, .grow, .worker 0 .retire]

/-- The only worker retires after a round, and the task that comes next gets a new one. -/
def twoRounds : List Event :=
  round 0 0 ++ .worker 0 .retire :: round 0 1

end ZilkerSdk.Concurrent.ThreadPool
