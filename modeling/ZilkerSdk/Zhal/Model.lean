import Mathlib.Algebra.Group.Int.Defs
import ZilkerSdk.Types.HashMap

/-!
# Requests to the zigbee core

Model of `zhalSendRequest`, `getAvailableWork`, `workOnItem` and `handleIpcResponse` in
`libs/zhal/c/src/zhalImpl.c` as the steps that the code makes atomic, for any number of
requesters, any number of received responses and the one worker thread.

A requester puts its work item into the queue of the device and waits.  The worker visits the
queues, takes at most one item from each that is not busy, and then works on the items it has got:
it registers an item in `asyncRequests`, marks the queue busy and transmits.  Each response is
handled by a thread of its own, which takes the item out of `asyncRequests`, clears the mark and
hands the response over.  A requester whose wait has timed out takes its item out of
`asyncRequests` or out of the queue, and if it is in neither leaves it to whoever has it.

* The mutex of an item is held by its requester except during the wait, by the worker from looking
  at the item to the end of the transmission, and by the handler that hands over a response.
  Nobody else's step is enabled meanwhile (`mutexFree`).
* An item is known by its number, which is one less than its request id.  It is freed by its
  requester or by the worker.  A handler that has kept a pointer to a freed item finds whatever
  item the memory has been given to since then; which one is an input.  Every other access to
  freed memory is undefined.
* A response has a whole number in its field `requestId` or lacks the field; another value counts
  as zero.  cJSON gives the number as an `int`, cut off at the bounds, and the lookup reads eight
  bytes at its place, of which the upper four are zero.
* The wait may end without a signal.  Signals to the worker are left out: it may look for work at
  any time.

The last five fields of the state are not in the source: they record the items in the order in
which they were queued and transmitted, and those that were answered, that timed out and whose
transmission failed.
-/

namespace ZilkerSdk.Zhal

open Types

/-! ## State -/

/-- Where a call of `zhalSendRequest` stands.  A result is the number of a response. -/
inductive Requester where
  /-- it has made the item and holds its mutex -/
  | preparing
  | waiting
  /-- the wait has timed out, and the item has been deleted from `asyncRequests` or was not there -/
  | timingOut (didDeleteFromAsyncRequests : Bool)
  /-- it has unlocked the item and looks at it for the last time -/
  | leaving (result : Option Nat)
  | returned (result : Option Nat)
deriving DecidableEq

/-- `WorkItem`, with the requester that has made it. -/
structure WorkItem where
  eui64 : UInt64
  response : Option Nat
  timedOut : Bool
  /-- the condition has been signalled -/
  signalled : Bool
  freed : Bool
  /-- when it is freed, the first item that its memory may be given to -/
  heir : Nat
  requester : Requester
deriving DecidableEq

structure DeviceQueue where
  queue : List Nat
  isBusy : Int
deriving DecidableEq

/-- How far `workOnItem` has got with an item. -/
inductive WorkStage where
  | registered
  | transmitting
  /-- `xmit` has failed -/
  | aborting
  /-- the item has been deleted from `asyncRequests` -/
  | clearing
deriving DecidableEq

inductive Worker where
  | idle
  /-- in `getAvailableWork`, with the queues that it has still to visit -/
  | collecting (remaining : List UInt64)
  /-- between two items of `availableWork` -/
  | working
  | processing (item : Nat) (stage : WorkStage)
deriving DecidableEq

/-- How far `handleIpcResponse` has got with the item it has found. -/
inductive HandlerStage where
  /-- it has taken the item out of `asyncRequests` -/
  | claimed (item : Nat)
  /-- it has cleared the busy mark -/
  | delivering (item : Nat)
  | finished
deriving DecidableEq

/-- A received response and the thread that handles it. -/
structure Handler where
  requestId : Option Int
  stage : HandlerStage
deriving DecidableEq

structure ZhalState where
  deviceQueues : IcHashMap UInt64 DeviceQueue
  asyncRequests : IcHashMap Nat Nat
  availableWork : List Nat
  worker : Worker
  items : List WorkItem
  handlers : List Handler
  queued : List Nat
  transmitted : List Nat
  answered : List Nat
  expired : List Nat
  aborted : List Nat

def zhalInit : ZhalState where
  deviceQueues := hashMapCreate
  asyncRequests := hashMapCreate
  availableWork := []
  worker := .idle
  items := []
  handlers := []
  queued := []
  transmitted := []
  answered := []
  expired := []
  aborted := []

/-! ## Steps -/

inductive ZhalOp where
  /-- the steps of the requester of an item -/
  | sendRequest (eui64 : UInt64)
  | enqueue (item : Nat)
  | timeOut (item : Nat)
  | timeOutQueue (item : Nat)
  | wake (item : Nat)
  | leave (item : Nat)
  /-- the steps of the worker -/
  | beginCollect
  | collect (eui64 : UInt64)
  | endCollect
  | takeItem
  | markBusy
  | xmitDone (ok : Bool)
  | abortRequest
  | clearBusy
  | finishWork
  /-- the steps of a response; `found` is the item that the pointer leads to -/
  | receive (requestId : Option Int)
  | releaseQueue (handler : Nat) (found : Nat)
  | deliver (handler : Nat) (found : Nat)
deriving DecidableEq

/-- `item->requestId`. -/
def requestIdOf (i : Nat) : Nat := i + 1

/-- The `valueint` of a number, as cJSON cuts it off. -/
def valueint (n : Int) : Int := max (-2 ^ 31) (min (2 ^ 31 - 1) n)

/-- The key that a response is looked up with. -/
def responseKey (n : Int) : Nat := (valueint n % 2 ^ 32).toNat

def Worker.holds (i : Nat) : Worker → Bool
  | .processing j _ => j = i
  | _ => false

def Requester.holds : Requester → Bool
  | .preparing | .timingOut _ => true
  | _ => false

/-- Neither the worker nor the requester holds the mutex of the item. -/
def mutexFree (s : ZhalState) (i : Nat) (item : WorkItem) : Prop :=
  s.worker.holds i = false ∧ item.requester.holds = false

instance (s : ZhalState) (i : Nat) (item : WorkItem) : Decidable (mutexFree s i item) :=
  inferInstanceAs (Decidable (_ ∧ _))

/-- The item at its place in memory, if it is still there. -/
def workItem (s : ZhalState) (i : Nat) : Option WorkItem :=
  s.items[i]?.filter fun item => !item.freed

/-- Where a pointer to the item `i` leads: the memory of a freed item may have been given to one
that was made after it was freed. -/
def leadsTo (s : ZhalState) (i found : Nat) : Prop :=
  if (workItem s i).isSome then found = i
  else (∃ item ∈ s.items[i]?, item.heir ≤ found) ∧ (workItem s found).isSome

instance (s : ZhalState) (i found : Nat) : Decidable (leadsTo s i found) :=
  inferInstanceAs (Decidable (ite _ _ _))

def setRequester (s : ZhalState) (i : Nat) (item : WorkItem) (requester : Requester) : ZhalState :=
  { s with items := s.items.set i { item with requester := requester } }

/-- The item that `zhalSendRequest` makes. -/
def newItem (eui64 : UInt64) : WorkItem := ⟨eui64, none, false, false, false, 0, .preparing⟩

/-- The item when its requester has given up: if it was in neither place, it is left to whoever
has it. -/
def abandonedItem (item : WorkItem) (didDelete inQueue : Bool) : WorkItem :=
  { item with timedOut := item.timedOut || (!didDelete && !inQueue), requester := .leaving none }

/-- The device queue when the requester of `i` has given up. -/
def abandonedQueue (i : Nat) (didDelete : Bool) (q : DeviceQueue) : DeviceQueue :=
  ⟨q.queue.erase i, if didDelete then q.isBusy - 1 else q.isBusy⟩

/-- Change the busy counter of a device queue. -/
def addBusy (queues : IcHashMap UInt64 DeviceQueue) (eui64 : UInt64) (change : Int) :
    IcHashMap UInt64 DeviceQueue :=
  hashMapModify queues eui64 fun q => { q with isBusy := q.isBusy + change }

/-- The step of `getAvailableWork` for one queue: what is left of the queue and what it gives. -/
def popAvailable (q : DeviceQueue) : DeviceQueue × List Nat :=
  if q.isBusy = 0 then
    match q.queue with
    | [] => (q, [])
    | item :: rest => ({ q with queue := rest }, [item])
  else (q, [])

def zhalStep (s : ZhalState) : ZhalOp → Option (ZhalState × Unit)
  | .sendRequest eui64 =>
    match s.worker with
    -- `deviceQueuesMutex` is held
    | .collecting _ => none
    | _ => some ({ s with
        deviceQueues := (hashMapPut s.deviceQueues eui64 ⟨[], 0⟩).1
        items := s.items ++ [newItem eui64] }, ())
  | .enqueue i => do
    let item ← s.items[i]?
    if item.requester = .preparing then
      some ({ setRequester s i item .waiting with
        deviceQueues := hashMapModify s.deviceQueues item.eui64 fun q =>
          { q with queue := q.queue ++ [i] }
        queued := s.queued ++ [i] }, ())
    else none
  | .timeOut i => do
    let item ← s.items[i]?
    if item.requester = .waiting ∧ mutexFree s i item then
      let (asyncRequests, didDelete) := hashMapDelete s.asyncRequests (requestIdOf i)
      some ({ setRequester s i item (.timingOut didDelete) with
        asyncRequests := asyncRequests
        expired := s.expired ++ [i] }, ())
    else none
  | .timeOutQueue i => do
    let item ← s.items[i]?
    let q ← hashMapGet s.deviceQueues item.eui64
    match item.requester with
    | .timingOut didDelete =>
      some ({ s with
        deviceQueues := hashMapModify s.deviceQueues item.eui64 (abandonedQueue i didDelete)
        items := s.items.set i (abandonedItem item didDelete (decide (i ∈ q.queue))) }, ())
    | _ => none
  | .wake i => do
    let item ← s.items[i]?
    if item.requester = .waiting ∧ mutexFree s i item then
      some (setRequester s i item (.leaving item.response), ())
    else none
  | .leave i => do
    -- the mutex is no longer held, so the worker may have freed the item
    let item ← workItem s i
    match item.requester with
    | .leaving result =>
      some ({ s with
        items := s.items.set i
          { item with
            freed := !item.timedOut
            heir := s.items.length
            requester := .returned result } }, ())
    | _ => none
  | .beginCollect =>
    match s.worker with
    | .idle => some ({ s with worker := .collecting (s.deviceQueues.items.map Prod.fst) }, ())
    | _ => none
  | .collect eui64 =>
    match s.worker with
    | .collecting remaining => do
      let q ← hashMapGet s.deviceQueues eui64
      if eui64 ∈ remaining then
        some ({ s with
          deviceQueues := hashMapModify s.deviceQueues eui64 fun q => (popAvailable q).1
          availableWork := s.availableWork ++ (popAvailable q).2
          worker := .collecting (remaining.erase eui64) }, ())
      else none
    | _ => none
  | .endCollect =>
    match s.worker with
    | .collecting [] => some ({ s with worker := .working }, ())
    | _ => none
  | .takeItem =>
    match s.worker, s.availableWork with
    | .working, i :: rest => do
      let item ← workItem s i
      if mutexFree s i item then
        if item.timedOut then
          some ({ s with
            availableWork := rest
            items := s.items.set i { item with freed := true, heir := s.items.length } }, ())
        else
          some ({ s with
            availableWork := rest
            asyncRequests := (hashMapPut s.asyncRequests (requestIdOf i) i).1
            worker := .processing i .registered }, ())
      else none
    | _, _ => none
  | .markBusy =>
    match s.worker with
    | .processing i .registered => do
      let item ← workItem s i
      some ({ s with
        deviceQueues := addBusy s.deviceQueues item.eui64 1
        worker := .processing i .transmitting
        transmitted := s.transmitted ++ [i] }, ())
    | _ => none
  | .xmitDone ok =>
    match s.worker with
    | .processing i .transmitting => do
      let _ ← workItem s i
      if ok then some ({ s with worker := .working }, ())
      else some ({ s with worker := .processing i .aborting, aborted := s.aborted ++ [i] }, ())
    | _ => none
  | .abortRequest =>
    match s.worker with
    | .processing i .aborting => do
      let _ ← workItem s i
      some ({ s with
        asyncRequests := (hashMapDelete s.asyncRequests (requestIdOf i)).1
        worker := .processing i .clearing }, ())
    | _ => none
  | .clearBusy =>
    match s.worker with
    | .processing i .clearing => do
      let item ← workItem s i
      some ({ s with
        deviceQueues := addBusy s.deviceQueues item.eui64 (-1)
        items := s.items.set i { item with signalled := true }
        worker := .working }, ())
    | _ => none
  | .finishWork =>
    match s.worker, s.availableWork with
    | .working, [] => some ({ s with worker := .idle }, ())
    | _, _ => none
  | .receive requestId =>
    match requestId with
    | none => some ({ s with handlers := s.handlers ++ [⟨requestId, .finished⟩] }, ())
    | some n =>
      match hashMapGet s.asyncRequests (responseKey n) with
      | none => some ({ s with handlers := s.handlers ++ [⟨requestId, .finished⟩] }, ())
      | some i =>
        some ({ s with
          asyncRequests := (hashMapDelete s.asyncRequests (responseKey n)).1
          handlers := s.handlers ++ [⟨requestId, .claimed i⟩]
          answered := s.answered ++ [i] }, ())
  | .releaseQueue h found => do
    let handler ← s.handlers[h]?
    let item ← s.items[found]?
    match handler.stage with
    | .claimed i =>
      if leadsTo s i found then
        some ({ s with
          deviceQueues := addBusy s.deviceQueues item.eui64 (-1)
          handlers := s.handlers.set h { handler with stage := .delivering i } }, ())
      else none
    | _ => none
  | .deliver h found => do
    let handler ← s.handlers[h]?
    let item ← s.items[found]?
    match handler.stage with
    | .delivering i =>
      if leadsTo s i found ∧ mutexFree s found item then
        some ({ s with
          items := s.items.set found { item with response := some h, signalled := true }
          handlers := s.handlers.set h { handler with stage := .finished } }, ())
      else none
    | _ => none

end ZilkerSdk.Zhal
