import Mathlib.Data.List.Nodup
import ZilkerSdk.Lib.Run
import ZilkerSdk.Lib.Threads

/-!
# The thread pool

Model of `libs/concurrent/c/src/threadPool.c` while the pool is running: any threads call
`threadPoolAddTask`, and the workers take tasks out of the queue, run them and retire
when there is nothing to do.

A call of `threadPoolAddTask` holds `poolMutex` from the moment it gets it to its end; in
between it pushes the task (the queue has its own mutex, so workers can take tasks in
the meantime, also while the call waits ten milliseconds for room) and creates a worker.
A worker pops without `poolMutex`.  It needs `poolMutex` to retire, and to count itself
active before and after it runs a task; so these are steps of their own, and they are
possible only while no call holds the mutex.  The two looks of a worker at `running`
change nothing while the pool runs, and are left out.

A wait of ten seconds for a task ends by a task or by the timeout, and the timeout may
come when the queue has a task again.

Tasks are numbered in the order of the calls.  The lists `ran` and `released` record the
calls of a task's function and of the function that frees its argument.
-/

namespace ZilkerSdk.Concurrent.ThreadPool

open Lib List

/-! ## State -/

inductive Pc where
  /-- About to pop. -/
  | idle
  /-- Waits for a task. -/
  | waiting
  /-- The pop returned NULL. -/
  | empty
  | took (task : Nat)
  /-- Counted as active, about to call the function of the task. -/
  | running (task : Nat)
  | ran (task : Nat)
  /-- The task is released, but the worker is still counted as active. -/
  | done
  deriving DecidableEq

structure Worker where
  offset : Nat
  pc : Pc
  deriving DecidableEq

/-- The call of `threadPoolAddTask` that holds `poolMutex`. -/
inductive Adder where
  | locked (task : Nat)
  /-- Waits for room in the queue. -/
  | waits (task : Nat)
  | pushed
  deriving DecidableEq

structure State where
  minThreads : Nat
  maxThreads : Nat
  /-- The capacity of the queue. -/
  capacity : Nat
  queue : List Nat
  threadCount : Nat
  active : Nat
  /-- The workers that have not retired. -/
  workers : List Worker
  /-- The calls of `threadPoolAddTask` that need `poolMutex`. -/
  pending : List Nat
  holder : Option Adder
  /-- How many calls there were. -/
  calls : Nat
  ran : List Nat
  released : List Nat
  deriving DecidableEq

def maxNumThreads : Nat := 64

def maxQueueSizeLimit : Nat := 128

/-- A pool with its first workers. -/
def freshPool (minThreads maxThreads capacity : Nat) : State where
  minThreads := minThreads
  maxThreads := maxThreads
  capacity := capacity
  queue := []
  threadCount := minThreads
  active := 0
  workers := (List.range minThreads).map fun offset => ⟨offset, .idle⟩
  pending := []
  holder := none
  calls := 0
  ran := []
  released := []

/-- `threadPoolCreate`; NULL for bad input values. -/
def threadPoolCreate (minThreads maxThreads maxQueueSize : Nat) : Option State :=
  if minThreads > maxThreads ∨ maxThreads > maxNumThreads ∨ maxQueueSize > maxQueueSizeLimit then
    none
  else
    some (freshPool minThreads maxThreads
      (if maxQueueSize = 0 then maxQueueSizeLimit else maxQueueSize))

/-! ## Steps -/

/-- A move of one worker. -/
inductive Move where
  | pop
  /-- The queue is empty. -/
  | wait
  | timeout
  /-- Look whether to retire. -/
  | retire
  | activate
  | run
  | release
  | deactivate
  deriving DecidableEq

inductive Event where
  | call
  /-- A call gets `poolMutex`. -/
  | lock (task : Nat)
  | push
  /-- No room within ten milliseconds. -/
  | reject
  /-- Create a worker if there is room for one, and return. -/
  | grow
  | worker (i : Nat) (move : Move)
  deriving DecidableEq

def State.setPc (s : State) (i : Nat) (worker : Worker) (pc : Pc) : State :=
  { s with workers := s.workers.set i ⟨worker.offset, pc⟩ }

/-- `addWorkerThreads(pool, 1)`. -/
def addWorkerThread (s : State) : State :=
  { s with
    workers := s.workers ++ [⟨s.threadCount, .idle⟩]
    threadCount := s.threadCount + 1 }

/-- The worker is the last one, beyond the minimum. -/
def retires (s : State) (worker : Worker) : Bool :=
  decide (worker.offset ≥ s.minThreads) && decide (worker.offset + 1 = s.threadCount)

def State.remove (s : State) (i : Nat) : State :=
  { s with workers := s.workers.eraseIdx i, threadCount := s.threadCount - 1 }

/-- One pass of the loop of `runWorker`, cut where it takes and releases the mutexes. -/
def runWorker (s : State) (i : Nat) (worker : Worker) : Move → Option State
  | .pop =>
    match worker.pc, s.queue with
    | .idle, task :: rest => some { s.setPc i worker (.took task) with queue := rest }
    | .waiting, task :: rest => some { s.setPc i worker (.took task) with queue := rest }
    | _, _ => none
  | .wait => if worker.pc = .idle ∧ s.queue = [] then some (s.setPc i worker .waiting) else none
  | .timeout => if worker.pc = .waiting then some (s.setPc i worker .empty) else none
  | .retire =>
    if worker.pc = .empty ∧ s.holder = none then
      if retires s worker then some (s.remove i) else some (s.setPc i worker .idle)
    else none
  | .activate =>
    match worker.pc, s.holder with
    | .took task, none => some { s.setPc i worker (.running task) with active := s.active + 1 }
    | _, _ => none
  | .run =>
    match worker.pc with
    | .running task => some { s.setPc i worker (.ran task) with ran := task :: s.ran }
    | _ => none
  | .release =>
    match worker.pc with
    | .ran task => some { s.setPc i worker .done with released := task :: s.released }
    | _ => none
  | .deactivate =>
    if worker.pc = .done ∧ s.holder = none then
      some { s.setPc i worker .idle with active := s.active - 1 }
    else none

/-- `threadPoolAddTask`, cut where the queue's mutex is taken and released. -/
def threadPoolAddTask (s : State) : Event → Option State
  | .lock task =>
    if task ∈ s.pending ∧ s.holder = none then
      some { s with pending := s.pending.erase task, holder := some (.locked task) }
    else none
  | .push =>
    match s.holder with
    | some (.locked task) =>
      if s.queue.length < s.capacity then
        some { s with queue := s.queue ++ [task], holder := some .pushed }
      else some { s with holder := some (.waits task) }
    | some (.waits task) =>
      if s.queue.length < s.capacity then
        some { s with queue := s.queue ++ [task], holder := some .pushed }
      else none
    | _ => none
  | .reject =>
    match s.holder with
    | some (.waits task) => some { s with holder := none, released := task :: s.released }
    | _ => none
  | .grow =>
    match s.holder with
    | some .pushed =>
      if s.threadCount < s.maxThreads ∧ s.active < s.maxThreads then
        some { addWorkerThread s with holder := none }
      else some { s with holder := none }
    | _ => none
  | _ => none

def step (s : State) : Event → Option (State × Unit)
  | .call => some ({ s with pending := s.calls :: s.pending, calls := s.calls + 1 }, ())
  | .worker i move =>
    match s.workers[i]? with
    | some worker => (runWorker s i worker move).map fun s' => (s', ())
    | none => none
  | event => (threadPoolAddTask s event).map fun s' => (s', ())

/-! ## What a step can do -/

/-- The moves of a worker. -/
inductive Moves (s : State) (i : Nat) (worker : Worker) : Move → State → Prop
  | pop {task : Nat} {rest : List Nat} (hpc : worker.pc = .idle ∨ worker.pc = .waiting)
      (hqueue : s.queue = task :: rest) :
      Moves s i worker .pop { s.setPc i worker (.took task) with queue := rest }
  | wait (hpc : worker.pc = .idle) (hqueue : s.queue = []) :
      Moves s i worker .wait (s.setPc i worker .waiting)
  | timeout (hpc : worker.pc = .waiting) : Moves s i worker .timeout (s.setPc i worker .empty)
  | retire (hpc : worker.pc = .empty) (hfree : s.holder = none) (hlast : retires s worker = true) :
      Moves s i worker .retire (s.remove i)
  | stay (hpc : worker.pc = .empty) (hfree : s.holder = none) (hlast : retires s worker = false) :
      Moves s i worker .retire (s.setPc i worker .idle)
  | activate {task : Nat} (hpc : worker.pc = .took task) (hfree : s.holder = none) :
      Moves s i worker .activate { s.setPc i worker (.running task) with active := s.active + 1 }
  | run {task : Nat} (hpc : worker.pc = .running task) :
      Moves s i worker .run { s.setPc i worker (.ran task) with ran := task :: s.ran }
  | release {task : Nat} (hpc : worker.pc = .ran task) :
      Moves s i worker .release { s.setPc i worker .done with released := task :: s.released }
  | deactivate (hpc : worker.pc = .done) (hfree : s.holder = none) :
      Moves s i worker .deactivate { s.setPc i worker .idle with active := s.active - 1 }

/-- The steps of a call. -/
inductive Adds (s : State) : Event → State → Prop
  | lock {task : Nat} (hpending : task ∈ s.pending) (hfree : s.holder = none) :
      Adds s (.lock task)
        { s with pending := s.pending.erase task, holder := some (.locked task) }
  | push {task : Nat} (hholder : s.holder = some (.locked task) ∨ s.holder = some (.waits task))
      (hroom : s.queue.length < s.capacity) :
      Adds s .push { s with queue := s.queue ++ [task], holder := some .pushed }
  | wait {task : Nat} (hholder : s.holder = some (.locked task)) :
      Adds s .push { s with holder := some (.waits task) }
  | reject {task : Nat} (hholder : s.holder = some (.waits task)) :
      Adds s .reject { s with holder := none, released := task :: s.released }
  | grow (hholder : s.holder = some .pushed)
      (hroom : s.threadCount < s.maxThreads ∧ s.active < s.maxThreads) :
      Adds s .grow { addWorkerThread s with holder := none }
  | full (hholder : s.holder = some .pushed)
      (hroom : ¬ (s.threadCount < s.maxThreads ∧ s.active < s.maxThreads)) :
      Adds s .grow { s with holder := none }

section

variable {s s' : State} {i : Nat} {worker : Worker} {move : Move} {event : Event}

theorem runWorker_moves (h : runWorker s i worker move = some s') : Moves s i worker move s' := by
  revert h
  -- the branches that do not fail
  fun_cases runWorker s i worker move <;> rintro ⟨⟩
  case case1 hqueue hpc => exact .pop (.inl hpc) hqueue
  case case2 hqueue hpc => exact .pop (.inr hpc) hqueue
  case case4 h => exact .wait h.1 h.2
  case case6 hpc => exact .timeout hpc
  case case8 h hlast => exact .retire h.1 h.2 hlast
  case case9 h hlast => exact .stay h.1 h.2 (Bool.eq_false_iff.mpr hlast)
  case case11 hfree hpc => exact .activate hpc hfree
  case case13 hpc => exact .run hpc
  case case15 hpc => exact .release hpc
  case case17 h => exact .deactivate h.1 h.2

theorem threadPoolAddTask_adds (h : threadPoolAddTask s event = some s') : Adds s event s' := by
  revert h
  fun_cases threadPoolAddTask s event <;> rintro ⟨⟩
  case case1 h => exact .lock h.1 h.2
  case case3 hholder hroom => exact .push (.inl hholder) hroom
  case case4 hholder _ => exact .wait hholder
  case case5 hholder hroom => exact .push (.inr hholder) hroom
  case case8 hholder => exact .reject hholder
  case case10 hholder hroom => exact .grow hholder hroom
  case case11 hholder hroom => exact .full hholder hroom

/-- What a step can do, with `Moves` for the workers and `Adds` for the calls. -/
theorem step_cases {o : Unit} (h : step s event = some (s', o)) :
    (event = .call ∧ s' = { s with pending := s.calls :: s.pending, calls := s.calls + 1 }) ∨
    (∃ i move worker, event = .worker i move ∧ s.workers[i]? = some worker ∧
      Moves s i worker move s') ∨
    Adds s event s' := by
  have hadds : (threadPoolAddTask s event).map (fun s' => (s', ())) = some (s', o) →
      Adds s event s' := by
    intro hmap
    exact threadPoolAddTask_adds (map_output_eq_some_iff.mp hmap).1
  cases event with
  | call => exact .inl ⟨rfl, (congrArg Prod.fst (Option.some.inj h)).symm⟩
  | worker i move =>
    dsimp only [step] at h
    split at h
    · rename_i worker hi
      obtain ⟨hmove, -⟩ := map_output_eq_some_iff.mp h
      exact .inr (.inl ⟨i, move, worker, rfl, hi, runWorker_moves hmove⟩)
    · cases h
  | _ => exact .inr (.inr (hadds h))

end

/-! ## Where the tasks are -/

/-- The worker has yet to run the task. -/
def Pc.toRun (task : Nat) : Pc → Bool
  | .took held => held == task
  | .running held => held == task
  | _ => false

/-- The worker has yet to release the task. -/
def Pc.toRelease (task : Nat) : Pc → Bool
  | .took held => held == task
  | .running held => held == task
  | .ran held => held == task
  | _ => false

/-- The worker is counted as active. -/
def Pc.busy : Pc → Bool
  | .running _ => true
  | .ran _ => true
  | .done => true
  | _ => false

/-- How often the call with the mutex holds the task. -/
def heldBy : Option Adder → Nat → Nat
  | some (.locked held), task => (held == task).toNat
  | some (.waits held), task => (held == task).toNat
  | _, _ => 0

/-- How often the task waits somewhere, with the workers that hold it in the sense of `holds`. -/
def State.places (s : State) (holds : Pc → Bool) (task : Nat) : Nat :=
  s.pending.count task + heldBy s.holder task + s.queue.count task +
    s.workers.countP fun worker => holds worker.pc

/-- A task waits somewhere or is in the log, once at most, and not before it was added. -/
def Within (s : State) (holds : Nat → Pc → Bool) (log : List Nat) : Prop :=
  ∀ task, s.places (holds task) task + log.count task ≤ 1 ∧
    (s.calls ≤ task → s.places (holds task) task + log.count task = 0)

/-- What holds in every state of a running pool. -/
structure Sound (s : State) : Prop where
  offsets : s.workers.map Worker.offset = List.range s.threadCount
  least : s.minThreads ≤ s.threadCount
  most : s.threadCount ≤ s.maxThreads
  counted : s.active = s.workers.countP fun worker => worker.pc.busy
  runs : Within s Pc.toRun s.ran
  releases : Within s Pc.toRelease s.released

theorem count_cons_toNat (task held : Nat) (tasks : List Nat) :
    (held :: tasks).count task = tasks.count task + (held == task).toNat := by
  rw [count_cons]
  cases held == task <;> rfl

variable {holds : Nat → Pc → Bool}

theorem Within.nodup {s : State} {log : List Nat} (h : Within s holds log) : log.Nodup := by
  rw [nodup_iff_count_le_one]
  intro task
  have hplaces := (h task).1
  omega

section

variable {s s' : State} {i : Nat} {worker : Worker} {move : Move} {event : Event}
  {holds : Nat → Pc → Bool} {log log' pending queue released : List Nat} {holder : Option Adder}

theorem Within.mono (h : Within s holds log) (hcalls : s'.calls = s.calls)
    (hle : ∀ task, s'.places (holds task) task + log'.count task ≤
      s.places (holds task) task + log.count task) : Within s' holds log' := by
  intro task
  have hbefore := h task
  have hgain := hle task
  omega

theorem places_setPc (hi : s.workers[i]? = some worker) (pc : Pc) (holds : Pc → Bool) (task : Nat) :
    (s.setPc i worker pc).places holds task + (holds worker.pc).toNat =
      s.places holds task + (holds pc).toNat := by
  have hmove := countP_set_add hi (fun worker => holds worker.pc) ⟨worker.offset, pc⟩
  unfold State.places
  dsimp only [State.setPc] at hmove ⊢
  omega

theorem places_remove (hi : s.workers[i]? = some worker) (holds : Pc → Bool) (task : Nat) :
    (s.remove i).places holds task + (holds worker.pc).toNat = s.places holds task := by
  have hfewer := countP_eraseIdx_add hi fun worker => holds worker.pc
  unfold State.places
  dsimp only [State.remove]
  omega

/-! ## Workers -/

section

variable (h : s.workers.map Worker.offset = List.range s.threadCount)
  (hi : s.workers[i]? = some worker)
include h hi

theorem offsets_setPc (pc : Pc) :
    (s.setPc i worker pc).workers.map Worker.offset = List.range s.threadCount := by
  obtain ⟨hlt, rfl⟩ := List.getElem?_eq_some_iff.mp hi
  unfold State.setPc
  rw [map_set, ← h]
  apply ext_getElem (by simp)
  intro j hj _
  rw [getElem_set]
  split
  · rename_i heq
    subst heq
    rw [getElem_map]
  · rfl

/-- The worker that retires is the last one of the list. -/
theorem offsets_remove (hlast : worker.offset + 1 = s.threadCount) :
    (s.remove i).workers.map Worker.offset = List.range (s.threadCount - 1) := by
  have hlength : s.workers.length = s.threadCount := by
    rw [← length_map Worker.offset, h, length_range]
  have hoffset : worker.offset = i := by
    have hmapped : (s.workers.map Worker.offset)[i]? = some worker.offset := by
      rw [getElem?_map, hi]
      rfl
    obtain ⟨hlt, -⟩ := List.getElem?_eq_some_iff.mp hi
    rw [h, getElem?_range (hlength ▸ hlt)] at hmapped
    exact (Option.some.inj hmapped).symm
  unfold State.remove
  rw [← dropLast_eq_eraseIdx (by omega), map_dropLast, h, ← hlast, range_succ, dropLast_concat]
  rfl

end

section

variable (h : Sound s) (hi : s.workers[i]? = some worker)
include h hi

/-- A worker moves; the queue and the logs may change as long as no task is gained, and the number
of active workers has to follow. -/
theorem Sound.setPc {pc : Pc} {ran : List Nat} {active : Nat}
    (hactive : active + worker.pc.busy.toNat = s.active + pc.busy.toNat)
    (hruns : ∀ task, queue.count task + (pc.toRun task).toNat + ran.count task ≤
      s.queue.count task + (worker.pc.toRun task).toNat + s.ran.count task)
    (hreleases : ∀ task, queue.count task + (pc.toRelease task).toNat + released.count task ≤
      s.queue.count task + (worker.pc.toRelease task).toNat + s.released.count task) :
    Sound { s.setPc i worker pc with
      queue := queue, active := active, ran := ran, released := released } where
  __ := h
  offsets := offsets_setPc h.offsets hi pc
  counted := by
    have hbusy := countP_set_add hi (fun worker => worker.pc.busy) ⟨worker.offset, pc⟩
    have hcounted := h.counted
    dsimp only [State.setPc] at hbusy ⊢
    omega
  runs := by
    refine h.runs.mono rfl fun task => ?_
    have hplaces := places_setPc hi pc (Pc.toRun task) task
    have hgain := hruns task
    unfold State.places at hplaces ⊢
    dsimp only [State.setPc] at hplaces ⊢
    omega
  releases := by
    refine h.releases.mono rfl fun task => ?_
    have hplaces := places_setPc hi pc (Pc.toRelease task) task
    have hgain := hreleases task
    unfold State.places at hplaces ⊢
    dsimp only [State.setPc] at hplaces ⊢
    omega

theorem Sound.setPc_free {pc : Pc} (hbusy : worker.pc.busy = pc.busy)
    (hrun : ∀ task, pc.toRun task = false) (hrelease : ∀ task, pc.toRelease task = false) :
    Sound (s.setPc i worker pc) := by
  apply h.setPc hi
  · rw [hbusy]
  · intro task
    rw [hrun task]
    exact Nat.add_le_add_right (Nat.le_add_right _ _) _
  · intro task
    rw [hrelease task]
    exact Nat.add_le_add_right (Nat.le_add_right _ _) _

/-- The task moves from the queue to a worker that had none. -/
theorem Sound.pop {task : Nat} {rest : List Nat} (hpc : worker.pc = .idle ∨ worker.pc = .waiting)
    (hqueue : s.queue = task :: rest) :
    Sound { s.setPc i worker (.took task) with queue := rest } := by
  have hfree : worker.pc.busy = false ∧ ∀ task', worker.pc.toRun task' = false ∧
      worker.pc.toRelease task' = false := by
    obtain hpc | hpc := hpc <;>
    · rw [hpc]
      exact ⟨rfl, fun _ => ⟨rfl, rfl⟩⟩
  apply h.setPc hi
  · rw [hfree.1]
    rfl
  · intro task'
    rw [hqueue, (hfree.2 task').1, count_cons_toNat]
    exact Nat.le_refl _
  · intro task'
    rw [hqueue, (hfree.2 task').2, count_cons_toNat]
    exact Nat.le_refl _

/-- A worker without a task retires, and only the one with the last offset may. -/
theorem Sound.retire (hpc : worker.pc = .empty) (hlast : retires s worker = true) :
    Sound (s.remove i) := by
  unfold retires at hlast
  rw [Bool.and_eq_true, decide_eq_true_iff, decide_eq_true_iff] at hlast
  have hbusy := countP_eraseIdx_add hi fun worker => worker.pc.busy
  rw [hpc] at hbusy
  refine ⟨offsets_remove h.offsets hi hlast.2, ?_, ?_, h.counted.trans hbusy.symm,
    h.runs.mono rfl fun task => ?_, h.releases.mono rfl fun task => ?_⟩
  · show s.minThreads ≤ s.threadCount - 1
    omega
  · exact Nat.le_trans (Nat.sub_le _ _) h.most
  · have hplaces := places_remove hi (Pc.toRun task) task
    rw [hpc] at hplaces
    exact Nat.add_le_add_right (Nat.le_of_eq hplaces) _
  · have hplaces := places_remove hi (Pc.toRelease task) task
    rw [hpc] at hplaces
    exact Nat.add_le_add_right (Nat.le_of_eq hplaces) _

/-- The worker is one of those counted, so the counter does not go below zero. -/
theorem Sound.deactivate (hpc : worker.pc = .done) :
    Sound { s.setPc i worker .idle with active := s.active - 1 } := by
  have hbusy : 0 < s.active := by
    rw [h.counted]
    exact countP_pos_iff.mpr ⟨worker, mem_of_getElem? hi, by rw [hpc]; rfl⟩
  apply h.setPc hi
  · rw [hpc]
    dsimp only [Pc.busy, Bool.toNat_true, Bool.toNat_false]
    omega
  · intro task'
    exact Nat.add_le_add_right (Nat.le_add_right _ _) _
  · intro task'
    exact Nat.add_le_add_right (Nat.le_add_right _ _) _

theorem Sound.moves (hmoves : Moves s i worker move s') : Sound s' := by
  cases hmoves with
  | pop hpc hqueue => exact h.pop hi hpc hqueue
  | wait hpc | timeout hpc | stay hpc =>
    exact h.setPc_free hi (by rw [hpc]; rfl) (fun _ => rfl) fun _ => rfl
  | retire hpc _ hlast => exact h.retire hi hpc hlast
  | deactivate hpc _ => exact h.deactivate hi hpc
  | @activate task hpc hfree =>
    apply h.setPc hi
    · rw [hpc]
      rfl
    · intro task'
      rw [hpc]
      exact Nat.le_refl _
    · intro task'
      rw [hpc]
      exact Nat.le_refl _
  -- the task goes from the worker to the log of the runs
  | @run task hpc =>
    apply h.setPc hi
    · rw [hpc]
      rfl
    · intro task'
      rw [hpc, count_cons_toNat]
      dsimp only [Pc.toRun, State.setPc, Bool.toNat_false]
      omega
    · intro task'
      rw [hpc]
      exact Nat.le_refl _
  -- and here to the log of the releases
  | @release task hpc =>
    apply h.setPc hi
    · rw [hpc]
      rfl
    · intro task'
      rw [hpc]
      exact Nat.le_refl _
    · intro task'
      rw [hpc, count_cons_toNat]
      dsimp only [Pc.toRelease, State.setPc, Bool.toNat_false]
      omega

end

/-! ## Calls -/

theorem Sound.call (h : Sound s) :
    Sound { s with pending := s.calls :: s.pending, calls := s.calls + 1 } := by
  have hwithin : ∀ {holds : Nat → Pc → Bool} {log : List Nat}, Within s holds log →
      Within { s with pending := s.calls :: s.pending, calls := s.calls + 1 } holds log := by
    intro holds log hbefore task
    have hold := hbefore task
    unfold State.places at hold ⊢
    dsimp only
    rw [count_cons_toNat]
    by_cases hnew : s.calls = task
    · rw [show (s.calls == task) = true from beq_iff_eq.mpr hnew, Bool.toNat_true]
      omega
    · rw [show (s.calls == task) = false from beq_eq_false_iff_ne.mpr hnew, Bool.toNat_false]
      omega
  exact { h with runs := hwithin h.runs, releases := hwithin h.releases }

/-- The step of a call moves its task along or drops it; the workers hold what they held. -/
theorem Within.carry (h : Within s holds log) (hcalls : s'.calls = s.calls)
    (hworkers : ∀ task, (s'.workers.countP fun worker => holds task worker.pc) =
      s.workers.countP fun worker => holds task worker.pc)
    (hle : ∀ task, s'.pending.count task + heldBy s'.holder task + s'.queue.count task +
        log'.count task ≤
      s.pending.count task + heldBy s.holder task + s.queue.count task + log.count task) :
    Within s' holds log' := by
  refine h.mono hcalls fun task => ?_
  have hgain := hle task
  unfold State.places
  rw [hworkers task]
  omega

variable (h : Sound s)
include h

theorem Sound.carry (hruns : ∀ task, pending.count task + heldBy holder task + queue.count task ≤
      s.pending.count task + heldBy s.holder task + s.queue.count task)
    (hreleases : ∀ task, pending.count task + heldBy holder task + queue.count task +
        released.count task ≤
      s.pending.count task + heldBy s.holder task + s.queue.count task + s.released.count task) :
    Sound { s with
      pending := pending, holder := holder, queue := queue, released := released } where
  __ := h
  runs := h.runs.carry rfl (fun _ => rfl) fun task => Nat.add_le_add_right (hruns task) _
  releases := h.releases.carry rfl (fun _ => rfl) hreleases

theorem Sound.carry_kept (hle : ∀ task, pending.count task + heldBy holder task + queue.count task ≤
      s.pending.count task + heldBy s.holder task + s.queue.count task) :
    Sound { s with pending := pending, holder := holder, queue := queue } :=
  h.carry hle fun task => Nat.add_le_add_right (hle task) _

theorem Sound.adds (hadds : Adds s event s') : Sound s' := by
  cases hadds with
  | @lock task hpending hfree =>
    refine h.carry_kept fun task' => ?_
    rw [hfree, (perm_cons_erase hpending).count_eq, count_cons_toNat]
    exact Nat.le_refl _
  | @push task hholder hroom =>
    -- the task goes from the call to the queue, whether or not the call had to wait
    have hheld : ∀ task', heldBy s.holder task' = (task == task').toNat := by
      intro task'
      obtain hholder | hholder := hholder <;>
      · rw [hholder]
        rfl
    refine h.carry_kept fun task' => ?_
    rw [hheld task', count_append, count_cons_toNat, count_nil, Nat.zero_add]
    dsimp only [heldBy]
    omega
  | @wait task hholder =>
    refine h.carry_kept fun task' => ?_
    rw [hholder]
    exact Nat.le_refl _
  | @reject task hholder =>
    refine h.carry (fun task' => ?_) fun task' => ?_
    · dsimp only [heldBy]
      omega
    · rw [hholder, count_cons_toNat]
      dsimp only [heldBy]
      omega
  | grow hholder hroom =>
    -- the new worker has no task, so no place gains or loses one
    have hidle : ∀ holds : Pc → Bool, holds .idle = false →
        ((addWorkerThread s).workers.countP fun worker => holds worker.pc) =
          s.workers.countP fun worker => holds worker.pc := by
      intro holds hnone
      have hadded := countP_append_singleton s.workers (fun worker => holds worker.pc)
        ⟨s.threadCount, .idle⟩
      rw [hnone] at hadded
      exact hadded
    refine ⟨?_, Nat.le_succ_of_le h.least, hroom.1, h.counted.trans (hidle Pc.busy rfl).symm,
      h.runs.carry rfl (fun task => hidle (Pc.toRun task) rfl) fun task' => ?_,
      h.releases.carry rfl (fun task => hidle (Pc.toRelease task) rfl) fun task' => ?_⟩
    · show (s.workers ++ [Worker.mk s.threadCount .idle]).map Worker.offset =
        range (s.threadCount + 1)
      rw [map_append, h.offsets, range_succ]
      rfl
    · rw [hholder]
      exact Nat.le_refl _
    · rw [hholder]
      exact Nat.le_refl _
  | full hholder hroom =>
    refine h.carry_kept fun task' => ?_
    rw [hholder]
    exact Nat.le_refl _

/-- Every step of a running pool keeps everything. -/
theorem Sound.step {o : Unit} (hstep : step s event = some (s', o)) : Sound s' := by
  obtain ⟨-, rfl⟩ | ⟨i, move, worker, -, hi, hmoves⟩ | hadds := step_cases hstep
  · exact h.call
  · exact h.moves hi hmoves
  · exact h.adds hadds

end

theorem countP_freshPool (minThreads maxThreads capacity : Nat) {holds : Pc → Bool}
    (hidle : holds .idle = false) :
    ((freshPool minThreads maxThreads capacity).workers.countP fun worker => holds worker.pc) =
      0 := by
  unfold freshPool
  rw [countP_map]
  exact countP_eq_zero.mpr fun _ _ => Bool.eq_false_iff.mp hidle

theorem within_freshPool (minThreads maxThreads capacity : Nat)
    (hidle : ∀ task, holds task .idle = false) :
    Within (freshPool minThreads maxThreads capacity) holds [] := by
  intro task
  have hnone := countP_freshPool minThreads maxThreads capacity (hidle task)
  have hplaces : (freshPool minThreads maxThreads capacity).places (holds task) task = 0 := by
    unfold State.places
    rw [hnone]
    rfl
  rw [hplaces]
  exact ⟨Nat.zero_le 1, fun _ => rfl⟩

theorem threadPoolCreate_sound {minThreads maxThreads maxQueueSize : Nat} {s : State}
    (h : threadPoolCreate minThreads maxThreads maxQueueSize = some s) : Sound s := by
  unfold threadPoolCreate at h
  split at h
  · cases h
  · rename_i hinputs
    rw [not_or, Nat.not_lt] at hinputs
    cases h
    refine ⟨?_, Nat.le_refl _, hinputs.1, (countP_freshPool _ _ _ rfl).symm,
      within_freshPool _ _ _ fun _ => rfl, within_freshPool _ _ _ fun _ => rfl⟩
    unfold freshPool
    rw [map_map]
    exact map_id _

end ZilkerSdk.Concurrent.ThreadPool
