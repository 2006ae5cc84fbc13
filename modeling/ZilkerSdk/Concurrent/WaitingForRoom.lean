import ZilkerSdk.Lib.Run
import ZilkerSdk.Lib.Pool
import ZilkerSdk.Concurrent.ThreadPool.Model

/-!
# A call that waits for room

`appendTaskToExecutor` (`libs/concurrent/c/src/taskExecutor.c`) and `threadPoolAddTask`
(`threadPool.c`) hold the mutex of their object while they push, and a push into a full queue waits,
for ten seconds or ten milliseconds.  The workers take the same mutex between two pops: the one of
the executor to look at `state`, those of the pool to look at `running`, twice, to retire and to
count themselves.  The pop itself needs the mutex of the queue only.

Both objects are a `Component`: what a worker does while it has the mutex, and where a pop and a run
lead.  Nothing here stops the object, so the looks always find it running.  A call without the mutex
has done nothing yet, so only the one that holds it is part of the state.
-/

namespace ZilkerSdk.Concurrent.WaitingForRoom

open Lib

/-! ## Workers and calls -/

inductive Pc (κ : Type) where
  /-- Needs the mutex of the object for one of its sections. -/
  | locking (part : κ)
  /-- Past its look at the object, about to pop. -/
  | popping
  /-- Waits in the queue for a task. -/
  | waiting
  | running
  | gone
  deriving DecidableEq

structure Worker (κ : Type) where
  offset : Nat
  pc : Pc κ
  deriving DecidableEq

/-- The adding call that holds the mutex of the object. -/
inductive Adder where
  | locked
  /-- Waits for room in the queue. -/
  | waits
  | pushed
  deriving DecidableEq

/-- An object with a queue and workers; its mutex protects a value of `σ`. -/
structure Component (κ σ : Type) where
  capacity : Nat
  capacity_pos : 0 < capacity
  /-- What a worker does in a section, and where it goes on. -/
  inside : κ → (offset : Nat) → σ → σ × Pc κ
  /-- Where a pop leads, with a task or without. -/
  popped : (task : Bool) → Pc κ
  /-- The section after the run of a task. -/
  ran : κ
  /-- What a call does after its push, and the workers that it creates. -/
  pushed : σ → σ × List (Worker κ)

structure State (κ σ : Type) where
  shared : σ
  /-- How many tasks the queue has. -/
  queued : Nat
  workers : List (Worker κ)
  holder : Option Adder
  deriving DecidableEq

inductive Move where
  /-- Take the mutex of the object, and release it after the section. -/
  | enter
  | pop
  /-- The queue is empty. -/
  | wait
  | timeout
  | finish

inductive Event where
  /-- A call gets the mutex. -/
  | lock
  /-- It finds the queue full. -/
  | wait
  | push
  /-- No room in time. -/
  | reject
  | unlock
  | worker (i : Nat) (move : Move)

variable {κ σ : Type}

section

variable [DecidableEq κ]

def Component.move (c : Component κ σ) (s : State κ σ) (worker : Worker κ) :
    Move → Option (State κ σ × Pc κ)
  | .enter =>
    match worker.pc, s.holder with
    | .locking part, none =>
      let r := c.inside part worker.offset s.shared
      some ({ s with shared := r.1 }, r.2)
    | _, _ => none
  | .pop =>
    if (worker.pc = .popping ∨ worker.pc = .waiting) ∧ 0 < s.queued then
      some ({ s with queued := s.queued - 1 }, c.popped true)
    else none
  | .wait => if worker.pc = .popping ∧ s.queued = 0 then some (s, .waiting) else none
  | .timeout => if worker.pc = .waiting then some (s, c.popped false) else none
  | .finish => if worker.pc = .running then some (s, .locking c.ran) else none

def step (c : Component κ σ) (s : State κ σ) : Event → Option (State κ σ × Unit)
  | .lock => if s.holder = none then some ({ s with holder := some .locked }, ()) else none
  | .wait =>
    if s.holder = some .locked ∧ s.queued = c.capacity then
      some ({ s with holder := some .waits }, ())
    else none
  | .push =>
    if (s.holder = some .locked ∨ s.holder = some .waits) ∧ s.queued < c.capacity then
      some ({ s with queued := s.queued + 1, holder := some .pushed }, ())
    else none
  | .reject => if s.holder = some .waits then some ({ s with holder := none }, ()) else none
  | .unlock =>
    if s.holder = some .pushed then
      let r := c.pushed s.shared
      some ({ s with shared := r.1, workers := s.workers ++ r.2, holder := none }, ())
    else none
  | .worker i move =>
    (s.workers[i]?).bind fun worker =>
      (c.move s worker move).map fun r =>
        ({ r.1 with workers := s.workers.set i ⟨worker.offset, r.2⟩ }, ())

end

/-! ## The executor and the pool -/

/-- `execWorkerThread` and `appendTaskToExecutor`, with `MAX_QUEUE_SIZE`. -/
def taskExecutor : Component Unit Unit where
  capacity := 100
  capacity_pos := by decide
  inside _ _ shared := (shared, .popping)
  popped task := if task then .running else .locking ()
  ran := ()
  pushed shared := (shared, [])

def createTaskExecutor : State Unit Unit := ⟨(), 0, [⟨0, .locking ()⟩], none⟩

inductive PoolSection where
  | isRunning
  /-- The second look, after the pop. -/
  | isStillRunning (task : Bool)
  | retire
  | activate
  | deactivate
  deriving DecidableEq

structure PoolCounts where
  minThreads : Nat
  maxThreads : Nat
  threadCount : Nat
  active : Nat
  deriving DecidableEq

/-- `runWorker` and `threadPoolAddTask`. -/
def threadPool (capacity : Nat) (hpos : 0 < capacity) : Component PoolSection PoolCounts where
  capacity := capacity
  capacity_pos := hpos
  inside
    | .isRunning, _, pool => (pool, .popping)
    | .isStillRunning task, _, pool => (pool, .locking (if task then .activate else .retire))
    | .retire, offset, pool =>
      if offset ≥ pool.minThreads ∧ offset + 1 = pool.threadCount then
        ({ pool with threadCount := pool.threadCount - 1 }, .gone)
      else (pool, .locking .isRunning)
    | .activate, _, pool => ({ pool with active := pool.active + 1 }, .running)
    | .deactivate, _, pool => ({ pool with active := pool.active - 1 }, .locking .isRunning)
  popped task := .locking (.isStillRunning task)
  ran := .deactivate
  pushed pool :=
    if pool.threadCount < pool.maxThreads ∧ pool.active < pool.maxThreads then
      ({ pool with threadCount := pool.threadCount + 1 },
        [⟨pool.threadCount, .locking .isRunning⟩])
    else (pool, [])

def threadPoolCreate (minThreads maxThreads : Nat) : State PoolSection PoolCounts where
  shared := ⟨minThreads, maxThreads, minThreads, 0⟩
  queued := 0
  workers := (List.range minThreads).map fun offset => ⟨offset, .locking .isRunning⟩
  holder := none

/-! ## The pool and its tasks

`ThreadPool` is about the same pool and its tasks.  Its steps take the decisions that are taken
here, from the same counts. -/

def countsOf (pool : ThreadPool.State) : PoolCounts :=
  ⟨pool.minThreads, pool.maxThreads, pool.threadCount, pool.active⟩

/-- The section of a move, if it has one. -/
def sectionOf : ThreadPool.Move → Option PoolSection
  | .retire => some .retire
  | .activate => some .activate
  | .deactivate => some .deactivate
  | _ => none

/-- The counts after a step of `ThreadPool`, and how many workers there are then. -/
def countsAfter (c : Component PoolSection PoolCounts) (pool : ThreadPool.State) :
    ThreadPool.Event → PoolCounts × Nat
  | .worker i move =>
    match pool.workers[i]?, sectionOf move with
    | some worker, some part =>
      let r := c.inside part worker.offset (countsOf pool)
      (r.1, if r.2 = .gone then pool.workers.length - 1 else pool.workers.length)
    | _, _ => (countsOf pool, pool.workers.length)
  | .grow =>
    let r := c.pushed (countsOf pool)
    (r.1, pool.workers.length + r.2.length)
  | _ => (countsOf pool, pool.workers.length)

theorem countsOf_step {capacity : Nat} (hpos : 0 < capacity) {pool pool' : ThreadPool.State}
    {event : ThreadPool.Event} {out : Unit} (h : ThreadPool.step pool event = some (pool', out)) :
    (countsOf pool', pool'.workers.length) =
      countsAfter (threadPool capacity hpos) pool event := by
  obtain ⟨rfl, rfl⟩ | ⟨i, move, worker, rfl, hi, hmoves⟩ | hadds := ThreadPool.step_cases h
  · rfl
  · have hlt : i < pool.workers.length := (List.getElem?_eq_some_iff.mp hi).1
    simp only [countsAfter, hi]
    cases hmoves with
    -- both ask whether the worker is the last one, beyond the minimum
    | retire _ _ hlast =>
      have hlast : worker.offset ≥ pool.minThreads ∧ worker.offset + 1 = pool.threadCount := by
        simpa [ThreadPool.retires] using hlast
      simp [sectionOf, threadPool, countsOf, hlast, ThreadPool.State.remove,
        List.length_eraseIdx, hlt]
    | stay _ _ hlast =>
      have hlast : ¬ (worker.offset ≥ pool.minThreads ∧ worker.offset + 1 = pool.threadCount) := by
        simpa [ThreadPool.retires] using hlast
      simp only [sectionOf, threadPool, countsOf, if_neg hlast]
      simp [ThreadPool.State.setPc]
    | _ => simp [sectionOf, threadPool, countsOf, ThreadPool.State.setPc]
  · cases hadds with
    | grow _ hroom => simp [countsAfter, threadPool, countsOf, hroom, ThreadPool.addWorkerThread]
    | full _ hroom =>
      simp only [countsAfter, threadPool, countsOf, if_neg hroom]
      rfl
    | _ => rfl

/-! ## Workers that are held up -/

/-- The worker runs a task or needs the mutex, if it still is one. -/
def Pc.heldUp : Pc κ → Bool
  | .locking _ | .running | .gone => true
  | .popping | .waiting => false

/-- A call waits for room, and every worker that does not run a task waits for its mutex. -/
def Blocked (c : Component κ σ) (s : State κ σ) : Prop :=
  s.holder = some .waits ∧ s.queued = c.capacity ∧ ∀ worker ∈ s.workers, worker.pc.heldUp = true

/-- A call that has to wait finds a worker that is about to pop. -/
def FindsPop (s : State κ σ) : Event → Prop
  | .wait => ∃ worker ∈ s.workers, worker.pc = .popping
  | _ => True

instance [DecidableEq κ] (s : State κ σ) (event : Event) : Decidable (FindsPop s event) := by
  delta FindsPop
  split <;> infer_instance

/-- While a call waits, there is room or a worker is about to make some. -/
structure Attended (c : Component κ σ) (s : State κ σ) : Prop where
  bound : s.queued ≤ c.capacity
  pops : s.holder = some .waits →
    s.queued < c.capacity ∨ ∃ worker ∈ s.workers, worker.pc = .popping

section

variable {c : Component κ σ} {s s' : State κ σ}

theorem Attended.not_blocked (h : Attended c s) : ¬ Blocked c s := by
  rintro ⟨hwaits, hfull, hheldUp⟩
  obtain hroom | ⟨worker, hmem, hpc⟩ := h.pops hwaits
  · exact Nat.ne_of_lt hroom hfull
  · have := hheldUp worker hmem
    rw [hpc] at this
    cases this

/-- A worker that is not about to pop goes on. -/
theorem popping_set {workers : List (Worker κ)} {worker new : Worker κ} {i : Nat}
    (hi : workers[i]? = some worker) (hnot : worker.pc ≠ .popping)
    (h : ∃ worker ∈ workers, worker.pc = .popping) :
    ∃ worker ∈ workers.set i new, worker.pc = .popping := by
  obtain ⟨popper, hmem, hpc⟩ := h
  obtain ⟨j, hj⟩ := List.getElem?_of_mem hmem
  refine ⟨popper, List.mem_of_getElem? (i := j) ?_, hpc⟩
  rw [getElem?_update hi, if_neg, hj]
  rintro rfl
  exact hnot (Option.some.inj (hi.symm.trans hj) ▸ hpc)

variable [DecidableEq κ]

theorem Attended.move {i : Nat} {worker : Worker κ} {move : Move} {pc : Pc κ} (h : Attended c s)
    (hi : s.workers[i]? = some worker) (hmove : c.move s worker move = some (s', pc)) :
    Attended c { s' with workers := s.workers.set i ⟨worker.offset, pc⟩ } := by
  cases move with
  | enter =>
    dsimp only [Component.move] at hmove
    split at hmove
    · rename_i hfree
      cases hmove
      exact ⟨h.bound, fun hwaits => nomatch hfree.symm.trans hwaits⟩
    · cases hmove
  | pop =>
    obtain ⟨⟨-, hsome⟩, rfl, -⟩ := of_enabled hmove
    have hroom : s.queued - 1 < c.capacity :=
      Nat.lt_of_lt_of_le (Nat.sub_lt hsome Nat.one_pos) h.bound
    exact ⟨Nat.le_of_lt hroom, fun _ => .inl hroom⟩
  | wait =>
    obtain ⟨⟨-, hempty⟩, rfl, -⟩ := of_enabled hmove
    exact ⟨h.bound, fun _ => .inl (hempty ▸ c.capacity_pos)⟩
  | timeout | finish =>
    obtain ⟨hpc, rfl, -⟩ := of_enabled hmove
    refine ⟨h.bound, fun hwaits => (h.pops hwaits).imp_right (popping_set hi ?_)⟩
    rw [hpc]
    nofun

theorem Attended.keeps {event : Event} {out : Unit} (h : Attended c s) (hfinds : FindsPop s event)
    (hstep : step c s event = some (s', out)) : Attended c s' := by
  cases event with
  | lock | reject | unlock =>
    obtain ⟨-, rfl, -⟩ := of_enabled hstep
    exact ⟨h.bound, nofun⟩
  | wait =>
    obtain ⟨-, rfl, -⟩ := of_enabled hstep
    exact ⟨h.bound, fun _ => .inr hfinds⟩
  | push =>
    obtain ⟨⟨-, hroom⟩, rfl, -⟩ := of_enabled hstep
    exact ⟨hroom, nofun⟩
  | worker i move =>
    obtain ⟨worker, hi, hrest⟩ := Option.bind_eq_some_iff.mp hstep
    obtain ⟨⟨s₁, pc⟩, hmove, ⟨⟩⟩ := Option.map_eq_some_iff.mp hrest
    exact h.move hi hmove

theorem not_blocked_of_findsPop {events : List Event} {outs : List Unit} (hfree : s.holder = none)
    (hempty : s.queued = 0) (hrun : run (step c) s events = some (s', outs))
    (hfinds : Guarded (step c) FindsPop s events) : ¬ Blocked c s' := by
  have hstart : Attended c s :=
    ⟨hempty ▸ Nat.zero_le _, fun hwaits => nomatch hfree.symm.trans hwaits⟩
  exact (run_invariant (fun _ _ _ _ => Attended.keeps) hstart hfinds hrun).not_blocked

end

/-- If every call that has to wait finds a worker that is about to pop, no call holds up the workers
of its executor or its pool. -/
theorem not_held_up {capacity : Nat} (hpos : 0 < capacity) (minThreads maxThreads : Nat)
    (events : List Event) :
    (∀ s outs, run (step taskExecutor) createTaskExecutor events = some (s, outs) →
      Guarded (step taskExecutor) FindsPop createTaskExecutor events → ¬ Blocked taskExecutor s) ∧
    ∀ s outs, run (step (threadPool _ hpos)) (threadPoolCreate minThreads maxThreads) events =
        some (s, outs) →
      Guarded (step (threadPool capacity hpos)) FindsPop (threadPoolCreate minThreads maxThreads)
        events →
      ¬ Blocked (threadPool capacity hpos) s :=
  ⟨fun _ _ => not_blocked_of_findsPop rfl rfl, fun _ _ => not_blocked_of_findsPop rfl rfl⟩

/-- A call adds a task. -/
def add : List Event := [.lock, .push, .unlock]

/-- A pool of one worker, for one task: the worker has looked, then two calls come. -/
def addTwice : List Event := .worker 0 .enter :: add ++ [.lock, .wait]

theorem not_held_up_addTwice :
    ∃ s outs, run (step (threadPool 1 Nat.one_pos)) (threadPoolCreate 1 1) addTwice =
        some (s, outs) ∧
      s.holder = some .waits ∧ ¬ Blocked (threadPool 1 Nat.one_pos) s :=
  ⟨_, _, rfl, rfl, (not_held_up Nat.one_pos 1 1 addTwice).2 _ _ rfl (by decide +kernel)⟩

/-- The worker of an executor runs a task while its queue fills up, and a call waits; it finishes
the task and waits for the call.  The worker of a pool has popped a task, and waits for the call
before it runs it. -/
theorem worker_held_up :
    (∃ s outs, run (step taskExecutor) createTaskExecutor
        (add ++ [.worker 0 .enter, .worker 0 .pop] ++ (List.replicate 100 add).flatten ++
          [.lock, .wait, .worker 0 .finish]) = some (s, outs) ∧
      s.workers = [⟨0, .locking ()⟩] ∧ Blocked taskExecutor s) ∧
    ∃ s outs, run (step (threadPool 1 Nat.one_pos)) (threadPoolCreate 1 1)
        (add ++ [.worker 0 .enter, .worker 0 .pop, .worker 0 .enter] ++ add ++ [.lock, .wait]) =
          some (s, outs) ∧
      s.workers = [⟨0, .locking .activate⟩] ∧ Blocked (threadPool 1 Nat.one_pos) s := by
  constructor
  · exact ⟨⟨(), 100, [⟨0, .locking ()⟩], some .waits⟩, List.replicate 308 (), by decide +kernel,
      rfl, rfl, rfl, by decide⟩
  · exact ⟨_, _, rfl, rfl, rfl, rfl, by decide⟩

end ZilkerSdk.Concurrent.WaitingForRoom
