import Mathlib.Data.List.Nodup
import ZilkerSdk.Lib.Pool
import ZilkerSdk.Lib.Run

/-!
# Delayed tasks

Model of `libs/concurrent/c/src/delayedTask.c`.  Every task has an object with its own
mutex and a thread; the list `tasks`, with the mutex `TASK_MTX`, leads from handles to
objects.

All work on an object's state is done with its mutex held, so a step is one such
section.  A call by handle is two steps: it finds the object in the list, and only later
gets the object's mutex.  If the object has been freed in between, the second step has no
meaning; the same is true of a step of the thread.  The wait of the thread may end at any
time, by the clock, a broadcast or for no reason.  The callback is called with the mutex
released, and so is the argument set to NULL after it.

Objects are numbered in the order in which they are made, and the model keeps them when
they are freed.  A task is freed when it is deleted from the list.  The list has a counter of
16 bits.  A thread that finds it zero destroys the list, and the tasks that are still in it stay
allocated, but no handle leads to them any more.
-/

namespace ZilkerSdk.Concurrent.DelayedTask

open Lib List Option

variable {α : Type*}

/-! ## State -/

inductive TaskState where
  | idle
  | waiting
  | running
  | canceled
  deriving DecidableEq

/-- Where the thread of a task is. -/
inductive Pc where
  | created
  /-- In the timed wait. -/
  | waits
  /-- About to call the callback. -/
  | due
  | called
  /-- The argument is set to NULL. -/
  | emptied
  /-- At the label `cleanup`. -/
  | leaving (detachSelf : Bool)
  | exited
  deriving DecidableEq

/-- A task and its thread. -/
structure Task (α : Type*) where
  handle : UInt32
  state : TaskState
  arg : Option α
  joinable : Bool
  pc : Pc
  /-- The argument that was given to `scheduleDelayTask`. -/
  given : Option α
  deriving DecidableEq

/-- The calls by handle. -/
inductive Op where
  | cancel
  | execute
  | reschedule
  | isWaiting
  deriving DecidableEq

structure State (α : Type*) where
  objects : List (Task α)
  /-- The numbers of the objects in the list. -/
  tasks : List Nat
  /-- `size` of the list, a `uint16_t`. -/
  size : Nat
  /-- The objects that were in a list when it was destroyed. -/
  dropped : List Nat
  /-- The calls that have found their object, but have not got its mutex yet. -/
  calls : List (Op × Nat)
  deriving DecidableEq

def noTasks : State α := ⟨[], [], 0, [], []⟩

/-- What the environment sees of a step. -/
inductive Outcome (α : Type*) where
  | silent
  | scheduled (handle : UInt32)
  /-- The callback of the task is called. -/
  | invoked (t : Nat) (arg : Option α)
  /-- `cancelDelayTask` returns; `stopped` tells whether it was in time. -/
  | canceled (t : Nat) (stopped : Bool) (retVal : Option α)
  | answered (retVal : Bool)
  /-- No task has the handle. -/
  | notFound
  deriving DecidableEq

/-! ## The calls -/

/-- What all calls do with the mutex of the object: something if the task has not begun. -/
def whileWaiting (task task' : Task α) (yes no : Outcome α) : Task α × Outcome α :=
  if task.state = .waiting ∨ task.state = .idle then (task', yes) else (task, no)

def cancelDelayTask (t : Nat) (task : Task α) : Task α × Outcome α :=
  whileWaiting task { task with state := .canceled } (.canceled t true task.arg)
    (.canceled t false none)

/-- `exceuteDelayTask` after the object is found. -/
def finalizeTaskInternal (task : Task α) : Task α × Outcome α :=
  whileWaiting task { task with state := .running } (.answered true) (.answered false)

/-- The new delay is left to the clock. -/
def rescheduleDelayTask (task : Task α) : Task α × Outcome α :=
  whileWaiting task task (.answered true) (.answered false)

def isDelayTaskWaiting (task : Task α) : Task α × Outcome α :=
  whileWaiting task task (.answered true) (.answered false)

def call (t : Nat) (task : Task α) : Op → Task α × Outcome α
  | .cancel => cancelDelayTask t task
  | .execute => finalizeTaskInternal task
  | .reschedule => rescheduleDelayTask task
  | .isWaiting => isDelayTaskWaiting task

/-! ## The thread -/

/-- The steps of the thread up to its `cleanup`. -/
inductive Move where
  /-- `expired`: there is no time left to wait. -/
  | start (expired : Bool)
  | wake (expired : Bool)
  | invoke
  | empty
  | finish
  deriving DecidableEq

def Task.detach (task : Task α) : Task α :=
  { task with joinable := false, pc := .leaving task.joinable }

/-- Only execute if the task was not canceled. -/
def Task.afterWait (task : Task α) : Task α :=
  if task.state = .canceled then task.detach else { task with state := .running, pc := .due }

def runDelayTaskThread (t : Nat) (task : Task α) : Move → Option (Task α × Outcome α)
  | .start expired =>
    if task.pc = .created then
      if task.state = .canceled then some (task.detach, .silent)
      else if expired then some ({ task with state := .running, pc := .due }, .silent)
      else some ({ task with state := .waiting, pc := .waits }, .silent)
    else none
  | .wake expired =>
    if task.pc = .waits then
      if task.state ≠ .waiting ∨ expired then some (task.afterWait, .silent)
      else some (task, .silent)
    else none
  | .invoke =>
    if task.pc = .due then some ({ task with pc := .called }, .invoked t task.arg) else none
  | .empty =>
    if task.pc = .called then some ({ task with arg := none, pc := .emptied }, .silent) else none
  | .finish =>
    if task.pc = .emptied then
      some (Task.detach { task with state := .canceled }, .silent)
    else none

/-! ## Steps -/

inductive Event (α : Type*) where
  | schedule (arg : Option α)
  /-- A call looks for its object. -/
  | find (op : Op) (handle : UInt32)
  /-- The `i`th of the calls gets the mutex of its object. -/
  | enter (i : Nat)
  | thread (t : Nat) (move : Move)
  /-- The thread deletes its task from the list, and exits. -/
  | cleanup (t : Nat)
  deriving DecidableEq

def State.handleOf (s : State α) (t : Nat) : Option UInt32 :=
  s.objects[t]?.map Task.handle

def findDelayedTaskByHandle (s : State α) (handle : UInt32) (t : Nat) : Bool :=
  decide (s.handleOf t = some handle)

def getDelayedTask (s : State α) (handle : UInt32) : Option Nat :=
  s.tasks.find? (findDelayedTaskByHandle s handle)

/-- One more than the handle of the task that the counter takes for the last one. -/
def assignHandle (s : State α) : UInt32 :=
  if s.size = 0 then 1
  else match s.tasks[s.size - 1]?.bind s.handleOf with
    | some last => last + 1
    -- the counter is never above the length of the list
    | none => 1

def scheduleDelayTask (s : State α) (arg : Option α) : State α :=
  { s with
    objects := s.objects ++ [⟨assignHandle s, .idle, arg, true, .created, arg⟩]
    tasks := s.tasks ++ [s.objects.length]
    size := if s.tasks.isEmpty then 1 else (s.size + 1) % 65536 }

/-- The counter when the first task with the handle is deleted. -/
def State.sizeWithout (s : State α) (handle : UInt32) : Nat :=
  if s.tasks.any (findDelayedTaskByHandle s handle) then s.size - 1 else s.size

/-- The end of `runDelayTaskThread`: the first task with the handle is deleted, and the list is
destroyed if its counter is zero. -/
def deleteDelayTask (s : State α) (handle : UInt32) : State α :=
  let tasks := s.tasks.eraseP (findDelayedTaskByHandle s handle)
  if s.sizeWithout handle = 0 then { s with tasks := [], size := 0, dropped := s.dropped ++ tasks }
  else { s with tasks := tasks, size := s.sizeWithout handle }

/-- The object of the task after a step. -/
def State.setTask (s : State α) (t : Nat) (task : Task α) : State α :=
  { s with objects := s.objects.set t task }

/-- A section with the mutex of an object that is allocated. -/
def withTask (s : State α) (t : Nat) (body : Task α → Option (Task α × Outcome α)) :
    Option (State α × Outcome α) :=
  match s.objects[t]? with
  | some task =>
    if t ∈ s.tasks ∨ t ∈ s.dropped then (body task).map fun r => (s.setTask t r.1, r.2) else none
  | none => none

def step (s : State α) : Event α → Option (State α × Outcome α)
  | .schedule arg => some (scheduleDelayTask s arg, .scheduled (assignHandle s))
  | .find op handle =>
    match getDelayedTask s handle with
    | some t => some ({ s with calls := s.calls ++ [(op, t)] }, .silent)
    | none => some (s, .notFound)
  | .enter i =>
    match s.calls[i]? with
    | some (op, t) =>
      withTask { s with calls := s.calls.eraseIdx i } t fun task => some (call t task op)
    | none => none
  | .thread t move => withTask s t fun task => runDelayTaskThread t task move
  | .cleanup t =>
    match s.objects[t]? with
    | some task =>
      match task.pc with
      | .leaving detachSelf =>
        some ((if detachSelf then deleteDelayTask s task.handle else s).setTask t
          { task with pc := .exited }, .silent)
      | _ => none
    | none => none

/-! ## What a step can do -/

/-- What a step can do to a task. -/
inductive Changes (t : Nat) (task : Task α) : Task α → Outcome α → Prop
  | cancel (hstate : task.state = .waiting ∨ task.state = .idle) :
      Changes t task { task with state := .canceled } (.canceled t true task.arg)
  | late : Changes t task task (.canceled t false none)
  | execute (hstate : task.state = .waiting ∨ task.state = .idle) :
      Changes t task { task with state := .running } (.answered true)
  | answer (retVal : Bool) : Changes t task task (.answered retVal)
  | bail (hpc : task.pc = .created ∨ task.pc = .waits) (hstate : task.state = .canceled) :
      Changes t task task.detach .silent
  | wait (hpc : task.pc = .created ∨ task.pc = .waits) (hstate : task.state ≠ .canceled)
      (hagain : task.pc = .waits → task.state = .waiting) :
      Changes t task { task with state := .waiting, pc := .waits } .silent
  | expire (hpc : task.pc = .created ∨ task.pc = .waits) (hstate : task.state ≠ .canceled) :
      Changes t task { task with state := .running, pc := .due } .silent
  | invoke (hpc : task.pc = .due) :
      Changes t task { task with pc := .called } (.invoked t task.arg)
  | empty (hpc : task.pc = .called) :
      Changes t task { task with arg := none, pc := .emptied } .silent
  | finish (hpc : task.pc = .emptied) :
      Changes t task (Task.detach { task with state := .canceled }) .silent
  | exit {detachSelf : Bool} (hpc : task.pc = .leaving detachSelf) :
      Changes t task { task with pc := .exited } .silent

section

variable {t : Nat} {task task' : Task α} {o : Outcome α}

theorem whileWaiting_changes {yes no : Outcome α}
    (hyes : task.state = .waiting ∨ task.state = .idle → Changes t task task' yes)
    (hno : Changes t task task no) :
    Changes t task (whileWaiting task task' yes no).1 (whileWaiting task task' yes no).2 := by
  unfold whileWaiting
  split
  · exact hyes ‹_›
  · exact hno

theorem call_changes (t : Nat) (task : Task α) (op : Op) :
    Changes t task (call t task op).1 (call t task op).2 := by
  cases op with
  | cancel => exact whileWaiting_changes .cancel .late
  | execute => exact whileWaiting_changes .execute (.answer false)
  | reschedule | isWaiting => exact whileWaiting_changes (fun _ => .answer true) (.answer false)

theorem afterWait_changes (hpc : task.pc = .waits) : Changes t task task.afterWait .silent := by
  unfold Task.afterWait
  split
  · exact .bail (.inr hpc) ‹_›
  · exact .expire (.inr hpc) ‹_›

theorem runDelayTaskThread_changes {move : Move}
    (h : runDelayTaskThread t task move = some (task', o)) : Changes t task task' o := by
  revert h
  fun_cases runDelayTaskThread t task move <;> rintro ⟨⟩
  case case1 hpc hcanceled => exact .bail (.inl hpc) hcanceled
  case case2 hpc hlive => exact .expire (.inl hpc) hlive
  case case3 hpc hlive _ =>
    refine .wait (.inl hpc) hlive fun hwaits => ?_
    cases hpc.symm.trans hwaits
  case case5 hpc _ => exact afterWait_changes hpc
  case case6 hpc hwaits =>
    -- a wake-up for no reason: the thread waits on
    have hstate : task.state = .waiting := by
      by_contra hother
      exact hwaits (.inl hother)
    have hsame : { task with state := .waiting, pc := .waits } = task := by rw [← hstate, ← hpc]
    have hwait : Changes t task { task with state := .waiting, pc := .waits } .silent := by
      refine .wait (.inr hpc) ?_ fun _ => hstate
      rw [hstate]
      exact TaskState.noConfusion
    exact hsame ▸ hwait
  case case8 hpc => exact .invoke hpc
  case case10 hpc => exact .empty hpc
  case case12 hpc => exact .finish hpc

variable {s s' : State α}

theorem withTask_eq_some {body : Task α → Option (Task α × Outcome α)}
    (h : withTask s t body = some (s', o)) :
    ∃ task task', s.objects[t]? = some task ∧ (t ∈ s.tasks ∨ t ∈ s.dropped) ∧
      body task = some (task', o) ∧ s' = s.setTask t task' := by
  revert h
  fun_cases withTask s t body <;> intro h
  case case1 task hobject hlive =>
    obtain ⟨⟨task', o'⟩, heq, ⟨⟩⟩ := map_eq_some_iff.mp h
    exact ⟨task, task', hobject, hlive, heq, rfl⟩
  all_goals cases h

/-- Outcomes that are about no task. -/
def Outcome.quiet : Outcome α → Bool
  | .silent | .scheduled _ | .notFound => true
  | _ => false

theorem objects_deleteDelayTask (s : State α) (handle : UInt32) :
    (deleteDelayTask s handle).objects = s.objects := by
  unfold deleteDelayTask
  split <;> rfl

/-- A task is added, or nothing happens to the tasks, or one of them changes; and only a thread that
exits deletes a task from the list. -/
theorem step_cases {event : Event α} (h : step s event = some (s', o)) :
    (∃ arg, event = .schedule arg ∧ s' = scheduleDelayTask s arg ∧ o.quiet = true) ∨
    (∃ calls, s' = { s with calls := calls } ∧ o.quiet = true) ∨
    (∃ t task task', s.objects[t]? = some task ∧ Changes t task task' o ∧
      s'.objects = s.objects.set t task' ∧
      (s'.tasks = s.tasks ∧ s'.size = s.size ∨ task.pc ≠ .exited ∧ task'.pc = .exited ∧
        s'.tasks = (deleteDelayTask s task.handle).tasks ∧
        s'.size = (deleteDelayTask s task.handle).size)) := by
  revert h
  fun_cases step s event <;> intro h
  case case1 => exact .inl ⟨_, rfl, (congrArg Prod.fst (some.inj h)).symm, by cases h; rfl⟩
  case case2 =>
    cases h
    exact .inr (.inl ⟨_, rfl, rfl⟩)
  case case3 =>
    cases h
    exact .inr (.inl ⟨s.calls, rfl, rfl⟩)
  case case4 op t hcall =>
    obtain ⟨task, task', hobject, -, hbody, rfl⟩ := withTask_eq_some h
    have hchanges := call_changes t task op
    rw [some.inj hbody] at hchanges
    exact .inr (.inr ⟨t, task, task', hobject, hchanges, rfl, .inl ⟨rfl, rfl⟩⟩)
  case case6 t move =>
    obtain ⟨task, task', hobject, -, hbody, rfl⟩ := withTask_eq_some h
    exact .inr (.inr ⟨t, task, task', hobject, runDelayTaskThread_changes hbody, rfl,
      .inl ⟨rfl, rfl⟩⟩)
  case case7 t task hobject detachSelf hpc =>
    cases h
    refine .inr (.inr ⟨t, task, { task with pc := .exited }, hobject, .exit hpc, ?_⟩)
    cases detachSelf with
    | false => exact ⟨rfl, .inl ⟨rfl, rfl⟩⟩
    | true =>
      refine ⟨congrArg (List.set · t _) (objects_deleteDelayTask s _), .inr ⟨?_, rfl, rfl, rfl⟩⟩
      rw [hpc]
      exact Pc.noConfusion
  all_goals cases h

end

/-! ## The owner of the argument -/

/-- What holds of a task at each point of its thread. -/
def Task.Sound (task : Task α) : Prop :=
  match task.pc with
  | .created => task.arg = task.given
  | .waits => task.arg = task.given
  | .due => task.state = .running ∧ task.arg = task.given
  | .called => task.state = .running
  | .emptied => task.state = .running
  | .leaving _ => task.state = .canceled
  | .exited => task.state = .canceled

/-- The argument of the task has gone to the callback or to a canceller. -/
def Task.spent (task : Task α) : Bool :=
  match task.pc with
  | .created => task.state == .canceled
  | .waits => task.state == .canceled
  | .due => false
  | _ => true

/-- The argument of the task goes to the callback or to a canceller. -/
def Outcome.spends (t : Nat) : Outcome α → Bool
  | .invoked u _ => u == t
  | .canceled u stopped _ => u == t && stopped
  | _ => false

/-- The callback gets the argument of the task, a canceller that comes too late gets NULL. -/
def Outcome.Hands (given : Nat → Option (Option α)) : Outcome α → Prop
  | .invoked t arg => given t = some arg
  | .canceled t stopped retVal => ∃ arg, given t = some arg ∧ retVal = if stopped then arg else none
  | _ => True

section

variable {t : Nat} {task task' : Task α} {o : Outcome α}

theorem sound_young (hpc : task.pc = .created ∨ task.pc = .waits) :
    task.Sound ↔ task.arg = task.given := by
  obtain hpc | hpc := hpc <;> simp [Task.Sound, hpc]

theorem spent_young (hpc : task.pc = .created ∨ task.pc = .waits) :
    task.spent = (task.state == .canceled) := by
  obtain hpc | hpc := hpc <;> simp [Task.spent, hpc]

/-- While the state says that the task has not begun, its thread has not either. -/
theorem Task.Sound.young (h : task.Sound) (hstate : task.state = .waiting ∨ task.state = .idle) :
    task.pc = .created ∨ task.pc = .waits := by
  cases hpc : task.pc <;> simp [Task.Sound, hpc] at h ⊢ <;> simp [h] at hstate

/-- What a step keeps of a task, and how it accounts for the argument. -/
structure Kept (t : Nat) (task task' : Task α) (o : Outcome α) : Prop where
  sound : task'.Sound
  given : task'.given = task.given
  spent : task'.spent.toNat = task.spent.toNat + (o.spends t).toNat
  others : ∀ u, u ≠ t → o.spends u = false
  hands : ∀ given, given t = some task.given → o.Hands given

/-- What each step does to the owner of the argument. -/
theorem Changes.keeps (hchanges : Changes t task task' o) (h : task.Sound) :
    Kept t task task' o := by
  cases hchanges with
  | cancel hstate =>
    -- the thread has not begun with the task, so the argument is still there to be given back
    have hyoung := h.young hstate
    have harg := (sound_young hyoung).mp h
    have hyoung' : ({ task with state := .canceled } : Task α).pc = .created ∨
        ({ task with state := .canceled } : Task α).pc = .waits := hyoung
    refine ⟨(sound_young hyoung').mpr harg, rfl, ?_, fun u hu => ?_, fun given hgiven => ?_⟩
    · rw [spent_young hyoung, spent_young hyoung']
      obtain hstate | hstate := hstate <;> simp [Outcome.spends, hstate]
    · simp [Outcome.spends, Ne.symm hu]
    · exact ⟨task.given, hgiven, harg⟩
  | late =>
    refine ⟨h, rfl, ?_, fun u _ => ?_, fun given hgiven => ⟨task.given, hgiven, rfl⟩⟩
    · simp [Outcome.spends]
    · simp [Outcome.spends]
  | execute hstate =>
    have hyoung := h.young hstate
    have hyoung' : ({ task with state := .running } : Task α).pc = .created ∨
        ({ task with state := .running } : Task α).pc = .waits := hyoung
    refine ⟨(sound_young hyoung').mpr ((sound_young hyoung).mp h), rfl, ?_, fun _ _ => rfl,
      fun _ _ => trivial⟩
    rw [spent_young hyoung, spent_young hyoung']
    obtain hstate | hstate := hstate <;> rw [hstate] <;> rfl
  | answer retVal => exact ⟨h, rfl, rfl, fun _ _ => rfl, fun _ _ => trivial⟩
  | bail hpc hstate =>
    refine ⟨hstate, rfl, ?_, fun _ _ => rfl, fun _ _ => trivial⟩
    rw [spent_young hpc, hstate]
    rfl
  | wait hpc hstate =>
    refine ⟨(sound_young hpc).mp h, rfl, ?_, fun _ _ => rfl, fun _ _ => trivial⟩
    rw [spent_young hpc, beq_false_of_ne hstate]
    rfl
  | expire hpc hstate =>
    refine ⟨⟨rfl, (sound_young hpc).mp h⟩, rfl, ?_, fun _ _ => rfl, fun _ _ => trivial⟩
    rw [spent_young hpc, beq_false_of_ne hstate]
    rfl
  | invoke hpc =>
    have hdue : task.state = .running ∧ task.arg = task.given := by simpa [Task.Sound, hpc] using h
    refine ⟨hdue.1, rfl, ?_, fun u hu => ?_, fun given hgiven => ?_⟩
    · simp [Task.spent, hpc, Outcome.spends]
    · simp [Outcome.spends, Ne.symm hu]
    · exact hgiven.trans (congrArg some hdue.2.symm)
  | empty hpc | exit hpc =>
    refine ⟨?_, rfl, ?_, fun _ _ => rfl, fun _ _ => trivial⟩
    · simpa [Task.Sound, hpc] using h
    · simp [Task.spent, hpc, Outcome.spends]
  | finish hpc =>
    refine ⟨rfl, rfl, ?_, fun _ _ => rfl, fun _ _ => trivial⟩
    simp [Task.spent, Task.detach, hpc, Outcome.spends]

end

/-- Every task is sound. -/
def Sound (s : State α) : Prop :=
  ∀ (t : Nat) (task : Task α), s.objects[t]? = some task → task.Sound

/-- How often the argument of a task has been handed over. -/
def State.spent (s : State α) (t : Nat) : Nat :=
  match s.objects[t]? with
  | some task => task.spent.toNat
  | none => 0

/-- The argument a task was scheduled with. -/
def State.given (s : State α) (t : Nat) : Option (Option α) :=
  s.objects[t]?.map Task.given

section

variable {s s' : State α} {event : Event α} {o : Outcome α}

theorem Outcome.quiet_spends (h : o.quiet = true) (t : Nat) : o.spends t = false := by
  cases o with
  | invoked | canceled => cases h
  | _ => rfl

theorem Outcome.quiet_hands (h : o.quiet = true) (given : Nat → Option (Option α)) :
    o.Hands given := by
  cases o with
  | invoked | canceled => cases h
  | _ => trivial

theorem Outcome.Hands.mono {given given' : Nat → Option (Option α)} (h : o.Hands given)
    (hmono : ∀ t arg, given t = some arg → given' t = some arg) : o.Hands given' := by
  cases o with
  | invoked t arg => exact hmono t arg h
  | canceled t stopped retVal =>
    obtain ⟨arg, hgiven, heq⟩ := h
    exact ⟨arg, hmono t arg hgiven, heq⟩
  | _ => trivial

theorem getElem?_schedule (s : State α) (arg : Option α) (t : Nat) :
    (scheduleDelayTask s arg).objects[t]? =
      if t = s.objects.length then some ⟨assignHandle s, .idle, arg, true, .created, arg⟩
      else s.objects[t]? :=
  getElem?_spawn s.objects _ t

/-- What one step does to the tasks and to their arguments. -/
theorem Sound.step (h : Sound s) (hstep : step s event = some (s', o)) :
    Sound s' ∧ (∀ t, s'.spent t = s.spent t + (o.spends t).toNat) ∧ o.Hands s'.given ∧
      ∀ t arg, s.given t = some arg → s'.given t = some arg := by
  obtain ⟨arg, -, rfl, hquiet⟩ | ⟨calls, rfl, hquiet⟩ |
    ⟨t, task, task', hobject, hchanges, hobjects, -⟩ := step_cases hstep
  · refine ⟨EachAt.spawn h rfl, fun t => ?_, Outcome.quiet_hands hquiet _, fun t arg' hgiven => ?_⟩
    · rw [Outcome.quiet_spends hquiet, State.spent, State.spent, getElem?_schedule]
      by_cases hnew : t = s.objects.length
      · rw [if_pos hnew, hnew, getElem?_eq_none (Nat.le_refl _)]
        rfl
      · rw [if_neg hnew]
        rfl
    · rw [State.given, getElem?_schedule]
      split
      · rename_i heq
        rw [State.given, heq, getElem?_eq_none (Nat.le_refl _)] at hgiven
        cases hgiven
      · exact hgiven
  -- only the list of the calls that have found their task changes
  · refine ⟨h, fun t => ?_, Outcome.quiet_hands hquiet _, fun _ _ hgiven => hgiven⟩
    rw [Outcome.quiet_spends hquiet]
    rfl
  · -- one task changes; the others are untouched
    have hkept := hchanges.keeps (h t task hobject)
    have hat : ∀ u, s'.objects[u]? = _ := hobjects ▸ getElem?_update hobject task'
    have hgiven : ∀ u, s'.given u = s.given u := by
      intro u
      rw [State.given, State.given, hat]
      split
      · rename_i hu
        rw [hu, hobject, map_some, map_some, hkept.given]
      · rfl
    refine ⟨?_, fun u => ?_, hkept.hands _ ?_, fun u arg harg => ?_⟩
    · rw [Sound, hobjects]
      exact EachAt.update h hobject hkept.sound
    · rw [State.spent, State.spent, hat]
      by_cases hu : u = t
      · rw [if_pos hu, hu, hobject]
        exact hkept.spent
      · rw [if_neg hu, hkept.others u hu]
        rfl
    · rw [hgiven, State.given, hobject]
      rfl
    · rw [hgiven]
      exact harg

end

/-! ## The list of tasks -/

/-- The counter is the length of the list, or the list has 65536 tasks and the counter is zero. -/
def State.Counted (s : State α) : Prop :=
  s.tasks.length ≤ 65536 ∧ s.size = s.tasks.length % 65536

/-- A new task gets a positive handle, and fewer than 65536 tasks are listed. -/
def Positive (s : State α) : Event α → Prop
  | .schedule _ => assignHandle s ≠ 0 ∧ s.tasks.length + 1 < 65536
  | _ => True

/-- The number of a task in the order of the list. -/
def State.key (s : State α) (t : Nat) : Nat :=
  match s.handleOf t with
  | some handle => handle.toNat
  | none => 0

/-- The tasks are in the list, in the order of their handles, until their threads exit. -/
structure Listed (s : State α) : Prop where
  counted : s.Counted
  room : s.tasks.length < 65536
  valid : ∀ t ∈ s.tasks, t < s.objects.length
  sorted : (s.tasks.map s.key).Pairwise (· < ·)
  live : ∀ (t : Nat) (task : Task α), s.objects[t]? = some task → task.pc ≠ .exited → t ∈ s.tasks

section

variable {s s' : State α} {event : Event α} {o : Outcome α} {t : Nat} {task task' : Task α}

theorem Changes.handle (h : Changes t task task' o) : task'.handle = task.handle := by
  cases h <;> rfl

theorem Changes.exited (h : Changes t task task' o) (hpc : task.pc = .exited) :
    task'.pc = .exited := by
  cases h <;> simp_all

namespace State.Counted

theorem schedule (h : s.Counted) (arg : Option α) (hroom : s.tasks.length < 65536) :
    (scheduleDelayTask s arg).Counted := by
  have hlength : (scheduleDelayTask s arg).tasks.length = s.tasks.length + 1 := length_append
  have hsize := h.2
  rw [Nat.mod_eq_of_lt hroom] at hsize
  refine ⟨by omega, ?_⟩
  rw [hlength]
  show (if s.tasks.isEmpty then 1 else (s.size + 1) % 65536) = _
  split
  · rename_i hempty
    rw [isEmpty_iff.mp hempty]
    rfl
  · rw [hsize]

theorem delete (h : s.Counted) (handle : UInt32) : (deleteDelayTask s handle).Counted := by
  unfold deleteDelayTask
  split
  · exact ⟨Nat.zero_le _, rfl⟩
  · -- the counter is not zero, so it is the length of the list
    rename_i hsize
    obtain ⟨hle, hcount⟩ := h
    show (s.tasks.eraseP _).length ≤ _ ∧ s.sizeWithout handle = (s.tasks.eraseP _).length % _
    unfold State.sizeWithout at hsize ⊢
    rw [length_eraseP]
    split at hsize <;> rename_i hany <;> simp only [hany, if_true, Bool.false_eq_true, if_false] <;>
      omega

/-- The list that is destroyed has no tasks. -/
theorem tasks_delete (h : s.Counted) (hroom : s.tasks.length < 65536) (handle : UInt32) :
    (deleteDelayTask s handle).tasks = s.tasks.eraseP (findDelayedTaskByHandle s handle) := by
  unfold deleteDelayTask
  split
  · rename_i hzero
    rw [State.sizeWithout, h.2, Nat.mod_eq_of_lt hroom, ← length_eraseP] at hzero
    exact (length_eq_zero_iff.mp hzero).symm
  · rfl

theorem assignHandle_concat (h : s.Counted) (hroom : s.tasks.length < 65536) {init : List Nat}
    {handle : UInt32} (heq : s.tasks = init ++ [t]) (hhandle : s.handleOf t = some handle) :
    assignHandle s = handle + 1 := by
  have hsize : s.size = init.length + 1 := by
    rw [h.2, Nat.mod_eq_of_lt hroom, heq, length_append]
    rfl
  rw [assignHandle, if_neg (by omega), hsize, heq, Nat.add_sub_cancel, getElem?_concat_length,
    bind_some, hhandle]

end State.Counted

theorem tasks_deleteDelayTask_sublist (s : State α) (handle : UInt32) :
    (deleteDelayTask s handle).tasks.Sublist s.tasks := by
  unfold deleteDelayTask
  split
  · exact nil_sublist _
  · exact eraseP_sublist

/-- A step on an object takes tasks out of the list and counts them, or leaves it alone. -/
theorem list_of_change (htasks : s'.tasks = s.tasks ∧ s'.size = s.size ∨
      task.pc ≠ .exited ∧ task'.pc = .exited ∧
        s'.tasks = (deleteDelayTask s task.handle).tasks ∧
        s'.size = (deleteDelayTask s task.handle).size) :
    s'.tasks.Sublist s.tasks ∧ (s.Counted → s'.Counted) := by
  unfold State.Counted
  obtain ⟨heq, hsize⟩ | ⟨-, -, heq, hsize⟩ := htasks <;> rw [heq, hsize]
  · exact ⟨List.Sublist.refl _, id⟩
  · exact ⟨tasks_deleteDelayTask_sublist s _, fun h => State.Counted.delete h _⟩

theorem Listed.unique (h : Listed s) {u : Nat} (ht : t ∈ s.tasks) (hu : u ∈ s.tasks)
    (heq : s.handleOf t = s.handleOf u) : t = u := by
  have hnodup : (s.tasks.map s.key).Nodup := h.sorted.imp Nat.ne_of_lt
  apply inj_on_of_nodup_map hnodup ht hu
  rw [State.key, heq]
  rfl

theorem toNat_add_one {handle : UInt32} (h : handle + 1 ≠ 0) :
    (handle + 1).toNat = handle.toNat + 1 := by
  have hbound : handle.toNat < 2 ^ 32 := handle.toNat_lt
  have hsum : (handle + 1).toNat = (handle.toNat + 1) % 2 ^ 32 := UInt32.toNat_add handle 1
  have hne : (handle + 1).toNat ≠ 0 := fun hzero => h (UInt32.toNat_inj.mp hzero)
  omega

theorem Listed.key_lt (h : Listed s) (hpositive : assignHandle s ≠ 0) (ht : t ∈ s.tasks) :
    s.key t < (assignHandle s).toNat := by
  obtain ⟨init, last, heq⟩ := (eq_nil_or_concat' s.tasks).resolve_left (ne_nil_of_mem ht)
  have hvalid : last < s.objects.length := by
    apply h.valid last
    rw [heq]
    exact mem_append_right _ mem_cons_self
  have hhandle : s.handleOf last = some (s.objects[last]).handle := by
    rw [State.handleOf, getElem?_eq_getElem hvalid]
    rfl
  have hassign : assignHandle s = (s.objects[last]).handle + 1 :=
    h.counted.assignHandle_concat h.room heq hhandle
  have hkey : s.key last = (s.objects[last]).handle.toNat := by rw [State.key, hhandle]
  -- the list is ordered, so the last task has the greatest handle
  have hlast : s.key t ≤ s.key last := by
    have hsorted := h.sorted
    rw [heq, map_append, pairwise_append] at hsorted
    rw [heq, mem_append, mem_singleton] at ht
    obtain hinit | rfl := ht
    · apply Nat.le_of_lt
      exact hsorted.2.2 _ (mem_map_of_mem hinit) _ (mem_singleton.mpr rfl)
    · exact Nat.le_refl _
  rw [hassign] at hpositive ⊢
  rw [toNat_add_one hpositive]
  omega

theorem Listed.schedule (h : Listed s) (arg : Option α) (hpositive : assignHandle s ≠ 0)
    (hroom : s.tasks.length + 1 < 65536) : Listed (scheduleDelayTask s arg) := by
  -- the handles that were given stay, and the new one is greater
  have hold : ∀ t ∈ s.tasks, (scheduleDelayTask s arg).key t = s.key t := by
    intro t ht
    rw [State.key, State.key, State.handleOf, State.handleOf, getElem?_schedule,
      if_neg (Nat.ne_of_lt (h.valid t ht))]
  have hnew : (scheduleDelayTask s arg).key s.objects.length = (assignHandle s).toNat := by
    rw [State.key, State.handleOf, getElem?_schedule, if_pos rfl]
    rfl
  refine ⟨h.counted.schedule arg h.room, ?_, fun t ht => ?_, ?_, fun t task htask hpc => ?_⟩
  · exact Nat.lt_of_le_of_lt (Nat.le_of_eq length_append) hroom
  · have hlength : (scheduleDelayTask s arg).objects.length = s.objects.length + 1 := length_append
    obtain ht | ht := mem_append.mp ht
    · have := h.valid t ht
      omega
    · rw [mem_singleton.mp ht]
      omega
  · show ((s.tasks ++ [s.objects.length]).map _).Pairwise _
    rw [map_append, map_congr_left hold, pairwise_append]
    refine ⟨h.sorted, pairwise_singleton _ _, fun key hkey new hmem => ?_⟩
    obtain ⟨t, ht, rfl⟩ := mem_map.mp hkey
    rw [mem_singleton.mp hmem, hnew]
    exact h.key_lt hpositive ht
  · rw [getElem?_schedule] at htask
    split at htask
    · rename_i heq
      exact heq ▸ mem_append_right _ mem_cons_self
    · exact mem_append_left _ (h.live t task htask hpc)

theorem Listed.change (h : Listed s) (hobject : s.objects[t]? = some task)
    (hchanges : Changes t task task' o) (hobjects : s'.objects = s.objects.set t task')
    (htasks : s'.tasks = s.tasks ∧ s'.size = s.size ∨ task.pc ≠ .exited ∧ task'.pc = .exited ∧
      s'.tasks = (deleteDelayTask s task.handle).tasks ∧
      s'.size = (deleteDelayTask s task.handle).size) : Listed s' := by
  have hat : ∀ u, s'.objects[u]? = _ := hobjects ▸ getElem?_update hobject task'
  -- no step changes a handle, so the order of the list is that of a sublist
  have hkey : s'.key = s.key := by
    funext u
    rw [State.key, State.key, State.handleOf, State.handleOf, hat]
    by_cases hu : u = t
    · rw [if_pos hu, hu, hobject, map_some, map_some, hchanges.handle]
    · rw [if_neg hu]
  obtain ⟨hsublist, hcounted⟩ := list_of_change htasks
  refine ⟨hcounted h.counted, Nat.lt_of_le_of_lt hsublist.length_le h.room, fun u hu => ?_, ?_,
    fun u task₁ htask hpc => ?_⟩
  · rw [hobjects, length_set]
    exact h.valid u (hsublist.subset hu)
  · rw [hkey]
    exact h.sorted.sublist (hsublist.map _)
  · rw [hat] at htask
    by_cases hu : u = t
    · rw [if_pos hu] at htask
      cases htask
      obtain ⟨heq, -⟩ | ⟨-, hexited, -⟩ := htasks
      · rw [heq, hu]
        exact h.live t task hobject fun hexited => hpc (hchanges.exited hexited)
      · exact absurd hexited hpc
    · rw [if_neg hu] at htask
      have hmem := h.live u task₁ htask hpc
      obtain ⟨heq, -⟩ | ⟨hrunning, -, heq, -⟩ := htasks
      · rw [heq]
        exact hmem
      · -- the handle that is deleted is that of the thread's own task
        rw [heq, h.counted.tasks_delete h.room, mem_eraseP_of_neg]
        · exact hmem
        · intro hfound
          apply hu
          apply h.unique hmem (h.live t task hobject hrunning)
          rw [of_decide_eq_true hfound, State.handleOf, hobject]
          rfl

theorem Listed.step (h : Listed s) (hpositive : Positive s event)
    (hstep : step s event = some (s', o)) : Listed s' := by
  obtain ⟨arg, rfl, rfl, -⟩ | ⟨calls, rfl, -⟩ |
    ⟨t, task, task', hobject, hchanges, hobjects, htasks⟩ := step_cases hstep
  · exact h.schedule arg hpositive.1 hpositive.2
  · exact { h with }
  · exact h.change hobject hchanges hobjects htasks

theorem spent_le_one (s : State α) (t : Nat) : s.spent t ≤ 1 := by
  unfold State.spent
  split
  · exact Bool.toNat_le _
  · exact Nat.zero_le 1

end

/-! ## Whole runs -/

theorem sound_noTasks : Sound (noTasks : State α) := fun t task htask => by cases htask

theorem listed_noTasks : Listed (noTasks : State α) :=
  ⟨⟨Nat.zero_le _, rfl⟩, Nat.two_pow_pos 16, nofun, List.Pairwise.nil,
    fun t task htask => by cases htask⟩

/-- In every run the argument of a task is handed over at most once, to the callback or to a
canceller, and it is the argument the task was scheduled with; a canceller that comes too late
gets NULL.  As long as handles do not wrap around and fewer than 65536 tasks are listed, a thread
never works on a freed task. -/
theorem argument_owned_once {events : List (Event α)} {s : State α} {os : List (Outcome α)}
    (hrun : run step noTasks events = some (s, os)) :
    (∀ t, os.countP (Outcome.spends t) ≤ 1) ∧ (∀ o ∈ os, o.Hands s.given) ∧
    (Guarded step Positive noTasks events →
      ∀ (t : Nat) (task : Task α), s.objects[t]? = some task → task.pc ≠ .exited →
        t ∈ s.tasks) := by
  refine ⟨fun t => ?_, ?_, fun hpositive => ?_⟩
  · have hcount : s.spent t = (noTasks : State α).spent t + os.countP (Outcome.spends t) :=
      run_countP (fun _ _ _ _ h hstep => ⟨(h.step hstep).1, (h.step hstep).2.1 t⟩) sound_noTasks
        hrun
    have hbound := spent_le_one s t
    omega
  · refine (run_outputs (Q := fun s o => o.Hands s.given) ?_ sound_noTasks (guarded_true _ _ _)
      hrun).2.2
    intro s event s' o h _ hstep
    obtain ⟨hsound, -, hhands, hmono⟩ := h.step hstep
    exact ⟨hsound, hhands, fun o' ho' => ho'.mono hmono⟩
  · have hend : Listed s :=
      run_invariant (fun _ _ _ _ h hcond hstep => h.step hcond hstep) listed_noTasks hpositive hrun
    exact hend.live

/-- Two cancels and an execution race for one task; the first cancel wins. -/
def race : List (Event Nat) :=
  [.schedule (some 7), .find .cancel 1, .find .cancel 1, .find .execute 1, .thread 0 (.start false),
    .enter 1, .enter 0, .enter 0, .thread 0 (.wake false), .cleanup 0]

theorem argument_owned_once_race :
    ∃ s os, run step noTasks race = some (s, os) ∧
      os.filter (Outcome.spends 0) = [.canceled 0 true (some 7)] ∧
      os.countP (Outcome.spends 0) ≤ 1 := by
  have hrun : run step noTasks race =
      some (⟨[⟨1, .canceled, some 7, false, .exited, some 7⟩], [], 0, [], []⟩,
        [.scheduled 1, .silent, .silent, .silent, .silent, .canceled 0 true (some 7),
          .canceled 0 false none, .answered false, .silent, .silent]) := by
    decide +kernel
  exact ⟨_, _, hrun, rfl, (argument_owned_once hrun).1 0⟩

end ZilkerSdk.Concurrent.DelayedTask
