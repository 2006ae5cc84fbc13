import ZilkerSdk.Lib.Run
import ZilkerSdk.Lib.Threads
import ZilkerSdk.Types.Queue

/-!
# The blocking queue

Model of `libs/concurrent/c/src/icBlockingQueue.c` for a queue that stays enabled and any
number of threads that call `blockingQueuePush`, `blockingQueuePop` (without a timeout),
`blockingQueueDelete` and `blockingQueueClear`.

A call holds the mutex from where it gets it to where it returns or waits for a
condition.  A thread that was woken gets the mutex again and then does the same as one
that has just called: it counts the items, and waits or not.  A signal wakes one of the
threads that wait for its condition, if there are any, and the run chooses which;
threads may also wake for no reason.

A push signals only when the queue was empty, and the other calls only when it was
full.  A second push that comes before the woken thread wakes nobody.
-/

namespace ZilkerSdk.Concurrent.BlockingQueue

open Lib Types

variable {α : Type}

/-! ## Calls -/

/-- `blockingQueueCreate`: the capacity of the queue. -/
def capacityOf (maxCapacity : Nat) : Nat := if maxCapacity > 0 then maxCapacity else 2 ^ 16 - 1

inductive Call (α : Type) where
  | push (item : α)
  | pop
  | delete (searchFunc : α → Bool)
  | clear

inductive Thread (α : Type) where
  /-- Has called, or was woken, and needs the mutex. -/
  | ready (call : Call α)
  /-- A push that waits for `fullCondition`. -/
  | waitsFull (item : α)
  | waitsEmpty
  | returned

inductive Condition where
  | full
  | empty

/-- What a call returns when it returns. -/
inductive Answer (α : Type) where
  | none
  | done (ok : Bool)
  | item (item : Option α)

/-- What becomes of a call that has got the mutex. -/
structure Outcome (α : Type) where
  thread : Thread α
  queue : IcQueue α
  signal : Option Condition
  answer : Answer α

/-- With more items than the queue can hold the loop would never end. -/
def blockingQueuePush (capacity : Nat) (queue : IcQueue α) (item : α) : Option (Outcome α) :=
  if queueCount queue = capacity then some ⟨.waitsFull item, queue, none, .none⟩
  else if queueCount queue < capacity then
    some ⟨.returned, queuePush queue item, if queueCount queue = 0 then some .empty else none,
      .done true⟩
  else none

def blockingQueuePop (capacity : Nat) (queue : IcQueue α) : Option (Outcome α) :=
  if queueCount queue = 0 then some ⟨.waitsEmpty, queue, none, .none⟩
  else
    some ⟨.returned, (queuePop queue).2, if queueCount queue = capacity then some .full else none,
      .item (queuePop queue).1⟩

def blockingQueueDelete (capacity : Nat) (queue : IcQueue α) (searchFunc : α → Bool) :
    Option (Outcome α) :=
  some ⟨.returned, (queueDelete queue searchFunc).2,
    if (queueDelete queue searchFunc).1 = true ∧ queueCount queue = capacity then some .full
    else none,
    .done (queueDelete queue searchFunc).1⟩

def blockingQueueClear (capacity : Nat) (queue : IcQueue α) : Option (Outcome α) :=
  some ⟨.returned, queueClear queue, if queueCount queue = capacity then some .full else none,
    .done true⟩

def Call.enter (capacity : Nat) (queue : IcQueue α) : Call α → Option (Outcome α)
  | .push item => blockingQueuePush capacity queue item
  | .pop => blockingQueuePop capacity queue
  | .delete searchFunc => blockingQueueDelete capacity queue searchFunc
  | .clear => blockingQueueClear capacity queue

/-! ## Threads -/

def Thread.inPop : Thread α → Bool
  | .waitsEmpty => true
  | _ => false

def Thread.inPush : Thread α → Bool
  | .waitsFull _ => true
  | _ => false

/-- On its way to pop an item. -/
def Thread.toPop : Thread α → Bool
  | .ready .pop => true
  | _ => false

/-- On its way to push an item. -/
def Thread.toPush : Thread α → Bool
  | .ready (.push _) => true
  | _ => false

def Thread.isReady : Thread α → Bool
  | .ready _ => true
  | _ => false

def Thread.wake : Thread α → Thread α
  | .waitsFull item => .ready (.push item)
  | .waitsEmpty => .ready .pop
  | thread => thread

def Condition.waiters : Condition → Thread α → Bool
  | .full => Thread.inPush
  | .empty => Thread.inPop

structure State (α : Type) where
  queue : IcQueue α
  threads : List (Thread α)

def created : State α := ⟨queueCreate, []⟩

inductive Event (α : Type) where
  /-- A thread calls. -/
  | call (call : Call α)
  /-- A thread gets the mutex; `choice` is the thread that is woken if it signals. -/
  | lock (i choice : Nat)
  /-- A thread wakes for no reason. -/
  | spurious (i : Nat)

def wakeOne (cond : Option Condition) (choice : Nat) (threads : List (Thread α)) :
    Option (List (Thread α)) :=
  match cond with
  | none => some threads
  | some cond => signal cond.waiters Thread.wake choice threads

def step (capacity : Nat) (s : State α) : Event α → Option (State α × Answer α)
  | .call call => some (⟨s.queue, s.threads ++ [.ready call]⟩, .none)
  | .lock i choice =>
    match s.threads[i]? with
    | some (.ready call) =>
      (call.enter capacity s.queue).bind fun outcome =>
        (wakeOne outcome.signal choice (s.threads.set i outcome.thread)).map fun threads =>
          (⟨outcome.queue, threads⟩, outcome.answer)
    | _ => none
  | .spurious i =>
    match s.threads[i]? with
    | some thread =>
      if thread.inPop || thread.inPush then
        some (⟨s.queue, s.threads.set i thread.wake⟩, .none)
      else none
    | none => none

/-! ## Stranded threads -/

/-- Every thread waits for a condition or has returned, and one of those that wait could go on. -/
def Stranded (capacity : Nat) (s : State α) : Prop :=
  s.threads.countP Thread.isReady = 0 ∧
    ((0 < s.queue.items.length ∧ 0 < s.threads.countP Thread.inPop) ∨
      (s.queue.items.length < capacity ∧ 0 < s.threads.countP Thread.inPush))

/-- While somebody waits to pop, every item has a thread on its way to it, and while somebody
waits to push, so has all the room. -/
structure Balanced (capacity : Nat) (s : State α) : Prop where
  counted : Counted s.queue
  bound : s.queue.items.length ≤ capacity
  pops : 0 < s.threads.countP Thread.inPop →
    s.queue.items.length ≤ s.threads.countP Thread.toPop
  pushes : 0 < s.threads.countP Thread.inPush →
    capacity ≤ s.queue.items.length + s.threads.countP Thread.toPush

/-- What a call that gets the mutex must find if it does not signal. -/
def Call.Covered (capacity : Nat) (s : State α) : Call α → Prop
  | .push _ =>
    0 < s.queue.items.length → s.queue.items.length < capacity →
      0 < s.threads.countP Thread.inPop →
      s.queue.items.length < s.threads.countP Thread.toPop
  | .pop =>
    0 < s.queue.items.length → s.queue.items.length < capacity →
      0 < s.threads.countP Thread.inPush →
      capacity < s.queue.items.length + s.threads.countP Thread.toPush
  | .delete searchFunc =>
    s.queue.items.any searchFunc = true → s.queue.items.length < capacity →
      0 < s.threads.countP Thread.inPush →
      capacity < s.queue.items.length + s.threads.countP Thread.toPush
  | .clear =>
    0 < s.queue.items.length →
      (s.queue.items.length = capacity → 1 < s.threads.countP Thread.inPush →
        capacity ≤ s.threads.countP Thread.toPush + 1) ∧
      (s.queue.items.length < capacity → 0 < s.threads.countP Thread.inPush →
        capacity ≤ s.threads.countP Thread.toPush)

instance (capacity : Nat) (s : State α) (call : Call α) : Decidable (call.Covered capacity s) := by
  delta Call.Covered
  split <;> infer_instance

/-- The same for the thread that gets the mutex. -/
def Covered (capacity : Nat) (s : State α) : Option (Thread α) → Prop
  | some (.ready call) => call.Covered capacity s
  | _ => True

instance (capacity : Nat) (s : State α) (thread : Option (Thread α)) :
    Decidable (Covered capacity s thread) := by
  delta Covered
  split <;> infer_instance

/-- No signal is missing: what the step adds is covered by threads that are on their way. -/
def NoLostSignal (capacity : Nat) (s : State α) : Event α → Prop
  | .lock i _ => Covered capacity s s.threads[i]?
  | _ => True

instance (capacity : Nat) (s : State α) (event : Event α) :
    Decidable (NoLostSignal capacity s event) := by
  delta NoLostSignal
  split <;> infer_instance

/-! ## Counting threads -/

open Thread

section

variable {threads threads' : List (Thread α)} {choice i : Nat} {thread : Thread α}

theorem isReady_of_onTheWay : (thread.toPop = true → thread.isReady = true) ∧
    (thread.toPush = true → thread.isReady = true) := by
  cases thread with
  | ready => exact ⟨fun _ => rfl, fun _ => rfl⟩
  | waitsFull | waitsEmpty | returned => exact ⟨nofun, nofun⟩

theorem counts_set {old : Thread α} (h : threads[i]? = some old) (thread : Thread α) :
    (threads.set i thread).countP inPop + old.inPop.toNat =
        threads.countP inPop + thread.inPop.toNat ∧
      (threads.set i thread).countP inPush + old.inPush.toNat =
        threads.countP inPush + thread.inPush.toNat ∧
      (threads.set i thread).countP toPop + old.toPop.toNat =
        threads.countP toPop + thread.toPop.toNat ∧
      (threads.set i thread).countP toPush + old.toPush.toNat =
        threads.countP toPush + thread.toPush.toNat :=
  ⟨countP_set_add h _ _, countP_set_add h _ _, countP_set_add h _ _, countP_set_add h _ _⟩

/-- A signal for `fullCondition` wakes a push unless none waits. -/
theorem wakeOne_full (h : wakeOne (some .full) choice threads = some threads') :
    threads'.countP inPop = threads.countP inPop ∧
      threads'.countP toPop = threads.countP toPop ∧
      ((threads'.countP inPush = 0 ∧
          threads'.countP toPush = threads.countP toPush) ∨
        (threads'.countP inPush + 1 = threads.countP inPush ∧
          threads'.countP toPush = threads.countP toPush + 1)) := by
  obtain ⟨hnone, rfl⟩ | ⟨thread, hthread, hwaits, rfl⟩ := signal_cases h
  · exact ⟨rfl, rfl, .inl ⟨hnone, rfl⟩⟩
  · cases thread with
    | waitsFull item =>
      obtain ⟨hinPop, hinPush, htoPop, htoPush⟩ := counts_set hthread (.ready (.push item))
      exact ⟨hinPop, htoPop, .inr ⟨hinPush, htoPush⟩⟩
    | ready | waitsEmpty | returned => cases hwaits

/-- A signal for `emptyCondition` wakes a pop unless none waits. -/
theorem wakeOne_empty (h : wakeOne (some .empty) choice threads = some threads') :
    threads'.countP inPush = threads.countP inPush ∧
      threads'.countP toPush = threads.countP toPush ∧
      ((threads'.countP inPop = 0 ∧
          threads'.countP toPop = threads.countP toPop) ∨
        (threads'.countP inPop + 1 = threads.countP inPop ∧
          threads'.countP toPop = threads.countP toPop + 1)) := by
  obtain ⟨hnone, rfl⟩ | ⟨thread, hthread, hwaits, rfl⟩ := signal_cases h
  · exact ⟨rfl, rfl, .inl ⟨hnone, rfl⟩⟩
  · cases thread with
    | waitsEmpty =>
      obtain ⟨hinPop, hinPush, htoPop, htoPush⟩ := counts_set hthread (.ready .pop)
      exact ⟨hinPush, htoPush, .inr ⟨hinPop, htoPop⟩⟩
    | ready | waitsFull | returned => cases hwaits

end

/-! ## What a call keeps -/

section

variable {capacity : Nat} {s : State α} {i choice : Nat} {outcome : Outcome α}
  {threads' : List (Thread α)}

theorem Balanced.queueCount_eq (h : Balanced capacity s) (hmax : capacity < 2 ^ 16) :
    queueCount s.queue = s.queue.items.length := by
  have hcounted : s.queue.size = s.queue.items.length % 2 ^ 16 := h.counted
  rw [Nat.mod_eq_of_lt (Nat.lt_of_le_of_lt h.bound hmax)] at hcounted
  exact hcounted

theorem Balanced.of_counts {queue : IcQueue α} {n : Nat} (hcounted : Counted queue)
    (hn : queue.items.length = n) (hbound : n ≤ capacity)
    (hpops : 0 < threads'.countP inPop → n ≤ threads'.countP toPop)
    (hpushes : 0 < threads'.countP inPush → capacity ≤ n + threads'.countP toPush) :
    Balanced capacity ⟨queue, threads'⟩ := by
  subst hn
  exact ⟨hcounted, hbound, hpops, hpushes⟩

section

variable (h : Balanced capacity s) (hmax : capacity < 2 ^ 16)
  (hwake : wakeOne outcome.signal choice (s.threads.set i outcome.thread) = some threads')

include h hmax hwake

theorem Balanced.push {item : α} (hi : s.threads[i]? = some (.ready (.push item)))
    (hcovered : (Call.push item).Covered capacity s)
    (henter : blockingQueuePush capacity s.queue item = some outcome) :
    Balanced capacity ⟨outcome.queue, threads'⟩ := by
  have hpops := h.pops
  have hpushes := h.pushes
  unfold Call.Covered at hcovered
  unfold blockingQueuePush at henter
  rw [h.queueCount_eq hmax] at henter
  split at henter
  · -- the queue is full, and the thread waits
    cases henter
    obtain rfl : s.threads.set i (.waitsFull item) = threads' := Option.some.inj hwake
    have hleave := counts_set hi (.waitsFull item)
    simp only [inPop, inPush, toPop, toPush, Bool.toNat_true,
      Bool.toNat_false, Nat.add_zero] at hleave
    apply Balanced.of_counts h.counted rfl h.bound
    · omega
    · omega
  · split at henter
    · rename_i hroom
      cases henter
      dsimp only at hwake
      have hleave := counts_set hi .returned
      simp only [inPop, inPush, toPop, toPush, Bool.toNat_true,
        Bool.toNat_false, Nat.add_zero] at hleave
      have hlength : (queuePush s.queue item).items.length = s.queue.items.length + 1 :=
        List.length_append
      apply Balanced.of_counts (h.counted.push item) hlength hroom
      all_goals
        split at hwake
        · -- the queue was empty, so a pop is woken
          have := wakeOne_empty hwake
          omega
        · cases hwake
          omega
    · cases henter

theorem Balanced.pop (hpos : 0 < capacity) (hi : s.threads[i]? = some (.ready .pop))
    (hcovered : Call.pop.Covered capacity s)
    (henter : blockingQueuePop capacity s.queue = some outcome) :
    Balanced capacity ⟨outcome.queue, threads'⟩ := by
  have ⟨_, hbound, hpops, hpushes⟩ := h
  unfold Call.Covered at hcovered
  unfold blockingQueuePop at henter
  rw [h.queueCount_eq hmax] at henter
  split at henter
  · -- the queue is empty, and the thread waits
    cases henter
    obtain rfl : s.threads.set i .waitsEmpty = threads' := Option.some.inj hwake
    have hleave := counts_set hi .waitsEmpty
    simp only [inPop, inPush, toPop, toPush, Bool.toNat_true,
      Bool.toNat_false, Nat.add_zero] at hleave
    apply Balanced.of_counts h.counted rfl h.bound
    · omega
    · omega
  · cases henter
    dsimp only at hwake
    have hleave := counts_set hi .returned
    simp only [inPop, inPush, toPop, toPush, Bool.toNat_true,
      Bool.toNat_false, Nat.add_zero] at hleave
    have hcounted := h.counted.pop (Nat.lt_of_le_of_lt h.bound hmax)
    apply Balanced.of_counts hcounted (length_queuePop s.queue) (by omega)
    all_goals
      split at hwake
      · -- the queue was full, so a push is woken
        have := wakeOne_full hwake
        omega
      · cases hwake
        omega

theorem Balanced.delete {searchFunc : α → Bool}
    (hi : s.threads[i]? = some (.ready (.delete searchFunc)))
    (hcovered : (Call.delete searchFunc).Covered capacity s)
    (henter : blockingQueueDelete capacity s.queue searchFunc = some outcome) :
    Balanced capacity ⟨outcome.queue, threads'⟩ := by
  have ⟨_, hbound, hpops, hpushes⟩ := h
  cases henter
  dsimp only at hwake
  rw [h.queueCount_eq hmax] at hwake
  have hleave := counts_set hi .returned
  simp only [inPop, inPush, toPop, toPush, Bool.toNat_false, Nat.add_zero] at hleave
  have hcounted := h.counted.delete (Nat.lt_of_le_of_lt h.bound hmax) searchFunc
  obtain ⟨hfound, hany, hlength⟩ | ⟨hfound, hlength⟩ := length_queueDelete s.queue searchFunc
  · apply Balanced.of_counts hcounted rfl (by omega)
    all_goals
      split at hwake
      · have := wakeOne_full hwake
        omega
      · rename_i hnot
        cases hwake
        have hlow : s.queue.items.length ≠ capacity := fun hfull => hnot ⟨hfound, hfull⟩
        have := hcovered hany
        omega
  · -- nothing is found, so nothing is signalled
    rw [if_neg (by rw [hfound]; exact fun hboth => Bool.noConfusion hboth.1)] at hwake
    cases hwake
    apply Balanced.of_counts hcounted hlength h.bound
    · omega
    · omega

theorem Balanced.clear (hi : s.threads[i]? = some (.ready .clear))
    (hcovered : Call.clear.Covered capacity s)
    (henter : blockingQueueClear capacity s.queue = some outcome) :
    Balanced capacity ⟨outcome.queue, threads'⟩ := by
  have ⟨_, hbound, hpops, hpushes⟩ := h
  unfold Call.Covered at hcovered
  cases henter
  dsimp only at hwake
  rw [h.queueCount_eq hmax] at hwake
  have hleave := counts_set hi .returned
  simp only [inPop, inPush, toPop, toPush, Bool.toNat_false, Nat.add_zero] at hleave
  have hempty : (queueClear s.queue).items = [] :=
    items_queueClear (h.counted.eq_nil (Nat.lt_of_le_of_lt h.bound hmax))
  apply Balanced.of_counts h.counted.clear (congrArg List.length hempty) (Nat.zero_le capacity)
  all_goals
    split at hwake
    · have := wakeOne_full hwake
      rw [List.length_nil]
      omega
    · cases hwake
      rw [List.length_nil]
      omega

end

/-! ## Whole runs -/

theorem Balanced.call (h : Balanced capacity s) (call : Call α) :
    Balanced capacity ⟨s.queue, s.threads ++ [.ready call]⟩ := by
  have hpops := h.pops
  have hpushes := h.pushes
  have h₁ := countP_append_singleton s.threads inPop (.ready call)
  have h₂ := countP_append_singleton s.threads inPush (.ready call)
  have h₃ := countP_append_singleton s.threads toPop (.ready call)
  have h₄ := countP_append_singleton s.threads toPush (.ready call)
  simp only [inPop, inPush, Bool.toNat_false, Nat.add_zero] at h₁ h₂
  apply Balanced.of_counts h.counted rfl h.bound
  · omega
  · omega

theorem Balanced.spurious (h : Balanced capacity s) {thread : Thread α}
    (hi : s.threads[i]? = some thread) (hwaits : (thread.inPop || thread.inPush) = true) :
    Balanced capacity ⟨s.queue, s.threads.set i thread.wake⟩ := by
  have hpops := h.pops
  have hpushes := h.pushes
  have hwake := counts_set hi thread.wake
  cases thread with
  | waitsFull | waitsEmpty =>
    simp only [wake, inPop, inPush, toPop, toPush, Bool.toNat_true, Bool.toNat_false] at hwake ⊢
    apply Balanced.of_counts h.counted rfl h.bound
    · omega
    · omega
  | ready | returned => cases hwaits

/-- A step that loses no signal keeps the balance. -/
theorem Balanced.step (hpos : 0 < capacity) (hmax : capacity < 2 ^ 16) {s' : State α}
    {event : Event α} {answer : Answer α} (h : Balanced capacity s)
    (hcovered : NoLostSignal capacity s event)
    (hstep : step capacity s event = some (s', answer)) : Balanced capacity s' := by
  cases event with
  | call call =>
    obtain rfl := congrArg Prod.fst (Option.some.inj hstep)
    exact h.call call
  | lock i choice =>
    dsimp only [BlockingQueue.step] at hstep
    dsimp only [NoLostSignal] at hcovered
    split at hstep
    · rename_i call hi
      rw [hi] at hcovered
      obtain ⟨outcome, henter, hrest⟩ := Option.bind_eq_some_iff.mp hstep
      obtain ⟨threads', hwake, heq⟩ := Option.map_eq_some_iff.mp hrest
      obtain rfl := congrArg Prod.fst heq
      cases call with
      | push item => exact h.push hmax hwake hi hcovered henter
      | pop => exact h.pop hmax hwake hpos hi hcovered henter
      | delete searchFunc => exact h.delete hmax hwake hi hcovered henter
      | clear => exact h.clear hmax hwake hi hcovered henter
    · cases hstep
  | spurious i =>
    dsimp only [BlockingQueue.step] at hstep
    split at hstep
    · rename_i thread hi
      obtain ⟨hwaits, rfl, -⟩ := of_enabled hstep
      exact h.spurious hi hwaits
    · cases hstep

theorem balanced_created (capacity : Nat) : Balanced capacity (created : State α) :=
  ⟨counted_queueCreate, Nat.zero_le capacity, fun hnone => absurd hnone (Nat.lt_irrefl 0),
    fun hnone => absurd hnone (Nat.lt_irrefl 0)⟩

/-- In a balanced state, somebody who could go on has somebody on the way who will see to it. -/
theorem Balanced.not_stranded (h : Balanced capacity s) : ¬ Stranded capacity s := by
  intro ⟨hidle, hstranded⟩
  have hpops : s.threads.countP toPop ≤ s.threads.countP isReady :=
    List.countP_mono_left fun _ _ => isReady_of_onTheWay.1
  have hpushes : s.threads.countP toPush ≤ s.threads.countP isReady :=
    List.countP_mono_left fun _ _ => isReady_of_onTheWay.2
  obtain ⟨hitems, hwaits⟩ | ⟨hroom, hwaits⟩ := hstranded
  · have := h.pops hwaits
    omega
  · have := h.pushes hwaits
    omega

/-- In a queue for one item no signal is ever lost: what changes the queue signals. -/
theorem noLostSignal_of_one (s : State α) (event : Event α) : NoLostSignal 1 s event := by
  cases event with
  | lock i choice =>
    dsimp only [NoLostSignal]
    unfold Covered
    split
    · rename_i call _
      cases call with
      | push | pop => intro _ _ _; omega
      | delete searchFunc =>
        intro hany hlow
        have hempty : s.queue.items = [] := List.eq_nil_of_length_eq_zero (by omega)
        rw [hempty] at hany
        cases hany
      | clear => exact fun _ => ⟨fun _ _ => Nat.le_add_left 1 _, fun _ _ => by omega⟩
    · trivial
  | call | spurious => trivial

/-- Two pops wait; two pushes come before the pop that was woken. -/
def twoPushes (item : α) : List (Event α) :=
  [.call .pop, .call .pop, .lock 0 0, .lock 1 0, .call (.push item), .call (.push item), .lock 2 0,
    .lock 3 0, .lock 0 0]

/-- With room for two items or more, the other pop is stranded. -/
theorem stranded_of_two_le (item : α) (htwo : 2 ≤ capacity) :
    ∃ s' answers, run (BlockingQueue.step capacity) created (twoPushes item) = some (s', answers) ∧
      Stranded capacity s' := by
  have h₀ : ¬ 0 = capacity := by omega
  have h₁ : ¬ 1 = capacity := by omega
  have h₂ : 0 < capacity := by omega
  have h₃ : 1 < capacity := by omega
  refine ⟨⟨⟨1, [item]⟩, [.returned, .waitsEmpty, .returned, .returned]⟩,
    [.none, .none, .none, .none, .none, .none, .done true, .done true, .item (some item)], ?_, rfl,
    .inl ⟨Nat.zero_lt_one, Nat.zero_lt_one⟩⟩
  by_cases hfull : 2 = capacity
  · subst hfull
    rfl
  · simp [twoPushes, run, BlockingQueue.step, created, Call.enter, blockingQueuePop,
      blockingQueuePush, queueCreate, queuePush, queuePop, queueCount, wakeOne, signal,
      Condition.waiters, inPop, wake, hfull, h₀, h₁, h₂, h₃]

end

/-- No thread is ever stranded if every step that does not signal finds enough threads on their
way; without that condition, exactly the queues for one item strand nobody. -/
theorem no_lost_wakeup_iff {maxCapacity : Nat} (hmax : maxCapacity < 2 ^ 16) (item : α) :
    (∀ events s' answers,
      run (step (capacityOf maxCapacity)) (created : State α) events = some (s', answers) →
      Guarded (step (capacityOf maxCapacity)) (NoLostSignal (capacityOf maxCapacity)) created
        events →
      ¬ Stranded (capacityOf maxCapacity) s') ∧
    ((∀ events s' answers,
      run (step (capacityOf maxCapacity)) (created : State α) events = some (s', answers) →
      ¬ Stranded (capacityOf maxCapacity) s') ↔ capacityOf maxCapacity = 1) := by
  obtain ⟨hpos, hcap⟩ : 0 < capacityOf maxCapacity ∧ capacityOf maxCapacity < 2 ^ 16 := by
    unfold capacityOf
    split <;> omega
  generalize capacityOf maxCapacity = capacity at hpos hcap ⊢
  have hsafe : ∀ events s' answers,
      run (step capacity) (created : State α) events = some (s', answers) →
      Guarded (step capacity) (NoLostSignal capacity) created events → ¬ Stranded capacity s' := by
    intro events s' answers hrun hguarded
    have hend : Balanced capacity s' :=
      run_invariant (fun _ _ _ _ h hcovered hstep => h.step hpos hcap hcovered hstep)
        (balanced_created capacity) hguarded hrun
    exact hend.not_stranded
  refine ⟨hsafe, ⟨fun hall => ?_, fun hone events s' answers hrun => ?_⟩⟩
  · by_contra hne
    obtain ⟨s', answers, hrun, hstranded⟩ := stranded_of_two_le item (show 2 ≤ capacity by omega)
    exact hall _ s' answers hrun hstranded
  · subst hone
    apply hsafe events s' answers hrun
    exact guarded_of_forall _ _ fun event _ s => noLostSignal_of_one s event

/-- A pop that waits, and the push it waits for. -/
def onePop : List (Event Nat) :=
  [.call .pop, .lock 0 0, .call (.push 5), .lock 1 0, .lock 0 0]

theorem no_lost_wakeup_iff_onePop :
    ∃ s' answers, run (step (capacityOf 10)) created onePop = some (s', answers) ∧
      ¬ Stranded (capacityOf 10) s' := by
  refine ⟨_, _, rfl, (no_lost_wakeup_iff (show 10 < 2 ^ 16 by decide) 5).1 onePop _ _ rfl ?_⟩
  decide +kernel

/-- A queue for ten items that has an item, a thread that waits to pop, and nobody else. -/
theorem pop_stranded :
    ∃ s' answers, run (step (capacityOf 10)) (created : State Nat) (twoPushes 5) =
        some (s', answers) ∧
      Stranded (capacityOf 10) s' ∧ s'.queue.items = [5] := by
  exact ⟨_, _, rfl, ⟨rfl, .inl ⟨Nat.zero_lt_one, Nat.zero_lt_one⟩⟩, rfl⟩

end ZilkerSdk.Concurrent.BlockingQueue
