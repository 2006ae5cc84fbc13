import Mathlib.Data.List.Perm.Basic
import ZilkerSdk.Types.HashMap
import ZilkerSdk.Types.Queue

/-!
# The message queue

Model of `services/comm/core/src/messageQueue.c`.  A message queue keeps its
messages in three sets: `allSet` (everything that waits), `filterSet` (pointers
to those of `allSet` the filter lets through) and `sentHash` (sent, waiting for a
reply).  A thread takes messages from `filterSet` and hands them to the
delegate's `processFunc`; callers append, remove and complete messages meanwhile.

Everything happens under `queueMtx`.  A step of the model is what one thread does
between taking the lock and giving it up, and the lock is given up around
`processFunc` and in every condition wait.  Where a thread stands while it does
not hold the lock is part of the state: `thread` for the queue thread, `removing`
for the `messageQueueRemove` calls that wait in `waitOnProcessingLocked`.

The answers of the delegate, the clock and the order in which the hash map
iterates are part of the input of a step.
-/

namespace ZilkerSdk.Comm

open Types

/-! ## Time trackers -/

structure TimeTracker where
  startTime : Nat
  timeoutSecs : Nat
  running : Bool
  deriving Repr, DecidableEq

def timeTrackerCreate : TimeTracker := ⟨0, 0, false⟩

def timeTrackerStart (tracker : TimeTracker) (timeoutSecs now : Nat) : TimeTracker :=
  { tracker with timeoutSecs := timeoutSecs, startTime := now, running := true }

/-- Seconds since the start, or the duration that `timeTrackerStop` left in `startTime`. -/
def timeTrackerElapsedSeconds (tracker : TimeTracker) (now : Nat) : Nat :=
  if tracker.running then (now - tracker.startTime) % 2 ^ 32 else tracker.startTime % 2 ^ 32

def timeTrackerStop (tracker : TimeTracker) (now : Nat) : TimeTracker :=
  { tracker with startTime := timeTrackerElapsedSeconds tracker now, running := false }

def timeTrackerExpired (tracker : TimeTracker) (now : Nat) : Bool :=
  tracker.running && decide (tracker.timeoutSecs ≤ timeTrackerElapsedSeconds tracker now)

/-! ## Messages -/

/-- The fields of `struct _message` that the queue reads or writes.
`okToRemoveFromSentQueueCallback` tells whether the callback is set. -/
structure Message where
  messageId : Nat
  okToRemoveFromSentQueueCallback : Bool
  tracker : Option TimeTracker
  expectsReply : Bool
  sentOnceFlag : Bool
  errorCount : Nat
  numRetries : Nat
  deriving Repr, DecidableEq, Inhabited

/-- A message object: the number of messages appended before it. -/
abbrev MessagePtr := Nat

inductive ProcessMessageCode where
  | success
  | invalid
  | sendFailure
  | delaySend
  | successHandled
  deriving Repr, DecidableEq

inductive MessageFailureReason where
  | none
  | invalid
  | send
  | timeout
  | retryMax
  | remove
  deriving Repr, DecidableEq

/-- How the life of a message ends: a call of `notifyFunc`, or being returned by
`messageQueueCompleted` or `messageQueueCompletedCustomSearch`. -/
inductive Ending where
  | notified (success : Bool) (reason : MessageFailureReason)
  | completed
  deriving Repr, DecidableEq

/-! ## State -/

inductive MqState where
  | notRunning
  | running
  | processing
  | canceling
  deriving Repr, DecidableEq

/-- Where the queue thread stands while it does not hold the lock. -/
inductive QueueThread where
  /-- there is no thread -/
  | absent
  /-- before the lock at the top of the loop -/
  | looping
  /-- in the wait for the sent set to shrink -/
  | awaitingReply
  /-- in the wait for a message in `filterSet` -/
  | awaitingMessage
  /-- in `processFunc`, with the copy of `expectsReply` it made before -/
  | processing (msg : MessagePtr) (expectsReply : Bool)
  /-- in the pause before a message that was not sent is tried again -/
  | delaying
  /-- out of the loop, before the lock at the end of the thread -/
  | exiting
  deriving Repr, DecidableEq

/-- `struct _messageQueue`, with the message objects, the threads that stand at a
lock or in a wait, and the ends of messages so far. -/
structure MessageQueue where
  allSet : IcQueue MessagePtr
  filterSet : IcQueue MessagePtr
  sentHash : IcHashMap Nat MessagePtr
  maxProcessedCount : Nat
  messageTimeoutSecs : Nat
  threadState : MqState
  /-- the message objects; those below `appended` are in use -/
  messages : MessagePtr → Message
  appended : Nat
  thread : QueueThread
  /-- messages of the `messageQueueRemove` calls that wait for the processing to end -/
  removing : List MessagePtr
  ended : List (MessagePtr × Ending)

/-- The entries of `sentHash` in the order in which an iterator finds them. -/
abbrev SentOrder := List (Nat × MessagePtr)

def messageQueueCreate (maxProcessingMessageCount messageTimeoutSecs : Nat) : MessageQueue where
  allSet := queueCreate
  filterSet := queueCreate
  sentHash := hashMapCreate
  -- neither limit may be zero
  maxProcessedCount := if maxProcessingMessageCount = 0 then 1 else maxProcessingMessageCount
  messageTimeoutSecs := if messageTimeoutSecs = 0 then 1 else messageTimeoutSecs
  threadState := .notRunning
  messages := fun _ => default
  appended := 0
  thread := .absent
  removing := []
  ended := []

/-! ## Parts of the operations -/

/-- `queue->delegate->notifyFunc(msg, success, reason)`. -/
def notifyFunc (q : MessageQueue) (msg : MessagePtr) (success : Bool)
    (reason : MessageFailureReason) : MessageQueue :=
  { q with ended := q.ended ++ [(msg, .notified success reason)] }

/-- Write to a message object. -/
def setMessage (q : MessageQueue) (msg : MessagePtr) (f : Message → Message) : MessageQueue :=
  { q with messages := Function.update q.messages msg (f (q.messages msg)) }

/-- Push to `allSet`, and to `filterSet` when `filterFunc` accepts the message. -/
def enqueue (q : MessageQueue) (msg : MessagePtr) (accepts : Bool) : MessageQueue :=
  { q with
    allSet := queuePush q.allSet msg
    filterSet := if accepts then queuePush q.filterSet msg else q.filterSet }

/-- `hashMapDelete(queue->sentHash, &messageId, ...)`. -/
def deleteSent (q : MessageQueue) (messageId : Nat) : MessageQueue :=
  { q with sentHash := (hashMapDelete q.sentHash messageId).1 }

/-- Comparison of `queueDelete` and `queueFind` by id. -/
def findMessageIdInQueue (q : MessageQueue) (messageId : Nat) (item : MessagePtr) : Bool :=
  (q.messages item).messageId = messageId

/-- Comparison of `queueDelete` by pointer. -/
def findMessageInQueue (msg item : MessagePtr) : Bool := msg = item

/-- `waitOnProcessingLocked` followed by the notification: while a message is being
processed the call waits with the lock released. -/
def notifyRemoved (q : MessageQueue) (msg : MessagePtr) : MessageQueue :=
  if q.threadState = .processing then { q with removing := q.removing ++ [msg] }
  else notifyFunc q msg false .remove

/-! ## Calls -/

def messageQueueStartThread (q : MessageQueue) (created : Bool) : MessageQueue :=
  if q.threadState = .notRunning then
    -- the state is set before the thread is created, and stays when that fails
    { q with threadState := .running, thread := if created then .looping else .absent }
  else q

/-- `messageQueueStopThread` after its wait for the processing to end. -/
def messageQueueStopThread (q : MessageQueue) : MessageQueue :=
  -- the later wait for the thread to die changes nothing
  if q.threadState = .running then { q with threadState := .canceling } else q

def messageQueueAppend (q : MessageQueue) (msg : Message) (accepts : Bool) : MessageQueue :=
  enqueue { setMessage q q.appended (fun _ => msg) with appended := q.appended + 1 }
    q.appended accepts

def messageQueueRemove (q : MessageQueue) (messageId : Nat) : MessageQueue :=
  let searchFunc := findMessageIdInQueue q messageId
  -- `filterSet` holds pointers only, so this deletion notifies nobody
  let q := { q with filterSet := (queueDelete q.filterSet searchFunc).2 }
  match queueFind q.allSet searchFunc with
  | some msg =>
    if (queueDelete q.allSet searchFunc).1 then
      notifyRemoved { q with allSet := (queueDelete q.allSet searchFunc).2 } msg
    else q
  -- not in `allSet`, so the message may be waiting for a reply
  | none =>
    match hashMapGet q.sentHash messageId with
    | some msg =>
      if (hashMapDelete q.sentHash messageId).2 then notifyRemoved (deleteSent q messageId) msg
      else q
    | none => q

/-- `messageQueueClear` after its wait for the processing to end. -/
def messageQueueClear (q : MessageQueue) (order : SentOrder) : MessageQueue :=
  let q := { q with filterSet := queueClear q.filterSet }
  -- the sent messages are handed to the delegate before the hash map is emptied
  let q := order.foldl (fun q item => notifyFunc q item.2 false .remove) q
  let q := { q with sentHash := hashMapCreate }
  (queueDrain q.allSet).1.foldl (fun q msg => notifyFunc q msg false .remove)
    { q with allSet := (queueDrain q.allSet).2 }

/-- Take a message out of the sent set and return it to the caller. -/
def completeMessage (q : MessageQueue) (messageId : Nat) (msg : MessagePtr) : MessageQueue :=
  { deleteSent q messageId with ended := q.ended ++ [(msg, .completed)] }

/-- `payload` tells whether there is one, `okToRemove` what the callback of the
message answers. -/
def messageQueueCompleted (q : MessageQueue) (messageId : Nat) (payload okToRemove : Bool) :
    MessageQueue × Option MessagePtr :=
  match hashMapGet q.sentHash messageId with
  | none => (q, none)
  | some msg =>
    -- the message itself may refuse the reply; it then stays and times out
    let canDelete :=
      if payload && (q.messages msg).okToRemoveFromSentQueueCallback then okToRemove else true
    if canDelete then (completeMessage q messageId msg, some msg) else (q, none)

def messageQueueCompletedCustomSearch (q : MessageQueue) (order : SentOrder)
    (searchFunc : MessagePtr → Bool) : MessageQueue × Option MessagePtr :=
  match order.find? fun item => searchFunc item.2 with
  | none => (q, none)
  | some item => (completeMessage q item.1 item.2, some item.2)

def messageQueueSetMaxProcessingMessageCount (q : MessageQueue) (max : Nat) : MessageQueue :=
  if max ≠ 0 then { q with maxProcessedCount := max } else q

def messageQueueSetMessageTimeoutSecs (q : MessageQueue) (timeoutSecs : Nat) : MessageQueue :=
  if timeoutSecs ≠ 0 then { q with messageTimeoutSecs := timeoutSecs } else q

/-- Callback of `queueIterate` in `messageQueueRunFilter`; it never stops the walk. -/
def iterateQueueAndApplyFilter (filterFunc : MessagePtr → Bool) (filterSet : IcQueue MessagePtr)
    (item : MessagePtr) : IcQueue MessagePtr × Bool :=
  (if filterFunc item then queuePush filterSet item else filterSet, true)

def messageQueueRunFilter (q : MessageQueue) (filterFunc : MessagePtr → Bool) : MessageQueue :=
  { q with
    filterSet :=
      queueIterate q.allSet (iterateQueueAndApplyFilter filterFunc) (queueClear q.filterSet) }

/-! ## The timeout check -/

/-- One turn of the loop of `checkSentHashForTimeouts`. -/
def checkSentMessage (filterFunc : MessagePtr → Bool) (now : Nat) (q : MessageQueue)
    (item : Nat × MessagePtr) : MessageQueue :=
  match (q.messages item.2).tracker with
  -- a sent message without a timer is given up as corrupt
  | none => deleteSent (notifyFunc q item.2 false .invalid) item.1
  | some tracker =>
    if timeTrackerExpired tracker now then
      -- `errorCount` is a `uint16_t`
      let q := setMessage q item.2 fun msg =>
        { msg with
          errorCount := (msg.errorCount + 1) % 2 ^ 16
          sentOnceFlag := true
          tracker := some (timeTrackerStop tracker now) }
      -- another attempt is allowed, or the message is pitched
      if (q.messages item.2).errorCount ≤ (q.messages item.2).numRetries then
        deleteSent (enqueue q item.2 (filterFunc item.2)) item.1
      else notifyFunc (deleteSent q item.1) item.2 false .retryMax
    else q

def checkSentHashForTimeouts (q : MessageQueue) (order : SentOrder)
    (filterFunc : MessagePtr → Bool) (now : Nat) : MessageQueue :=
  if hashMapCount q.sentHash = 0 then q else order.foldl (checkSentMessage filterFunc now) q

/-! ## The queue thread -/

/-- Hand a message that was taken from both queues to `processFunc`. -/
def dispatch (q : MessageQueue) (msg : MessagePtr) (now : Nat) : MessageQueue :=
  if (q.messages msg).expectsReply then
    match hashMapPut q.sentHash (q.messages msg).messageId msg with
    -- a second message under an id that is in use is invalid
    | (_, false) => notifyFunc q msg false .invalid
    -- the timer of an earlier attempt is used again
    | (sentHash, true) =>
      { setMessage q msg (fun m =>
          { m with
            tracker := some (timeTrackerStart (m.tracker.getD timeTrackerCreate)
              q.messageTimeoutSecs now) }) with
        sentHash := sentHash
        threadState := .processing
        thread := .processing msg true }
  else { q with threadState := .processing, thread := .processing msg false }

/-- The loop of `queueThread` from its top to the next place where it gives up the lock. -/
def queueThreadLoop (q : MessageQueue) (now : Nat) : MessageQueue :=
  -- told to cancel
  if q.threadState = .canceling then { q with thread := .exiting }
  -- too many messages wait for a reply
  else if q.maxProcessedCount ≤ hashMapCount q.sentHash then { q with thread := .awaitingReply }
  -- nothing to send
  else if queueCount q.filterSet = 0 then { q with thread := .awaitingMessage }
  else
    match queuePop q.filterSet with
    | (none, _) => q
    | (some msg, filterSet) =>
      -- a message that `allSet` does not have is logged and sent all the same
      dispatch { q with
        filterSet := filterSet
        allSet := (queueDelete q.allSet (findMessageInQueue msg)).2 } msg now

/-- What the thread does for a message that was not sent: stop the timer and take the
message out of the sent set. -/
def withdraw (q : MessageQueue) (msg : MessagePtr) (now : Nat) : MessageQueue :=
  let q := setMessage q msg fun m => { m with tracker := m.tracker.map (timeTrackerStop · now) }
  if (q.messages msg).expectsReply then deleteSent q (q.messages msg).messageId else q

/-- Put a message that was not sent back into the queue and pause before going on. -/
def requeue (q : MessageQueue) (msg : MessagePtr) (accepts : Bool) : MessageQueue :=
  { enqueue q msg accepts with
    thread := if q.threadState = .canceling then .looping else .delaying }

/-- The thread is back from `processFunc` and has the lock. -/
def endProcessing (q : MessageQueue) : MessageQueue :=
  { q with
    -- a state that changed in the meantime is kept and logged as an error
    threadState := if q.threadState = .processing then .running else q.threadState
    thread := .looping }

/-- The loop of `queueThread` from the return of `processFunc` on. -/
def queueThreadProcessed (q : MessageQueue) (msg : MessagePtr) (expectsReply : Bool)
    (rc : ProcessMessageCode) (accepts : Bool) (now : Nat) : MessageQueue :=
  let q := endProcessing q
  match rc with
  -- with a reply to come, the message stays in `sentHash`
  | .success => if expectsReply then q else notifyFunc q msg true .none
  -- the delete uses the id of the message whether or not it expects a reply
  | .successHandled => notifyFunc (deleteSent q (q.messages msg).messageId) msg true .none
  | .invalid => notifyFunc (withdraw q msg now) msg false .invalid
  | .delaySend => requeue (withdraw q msg now) msg accepts
  -- a failure counts against the retries, a delay does not
  | .sendFailure =>
    let q := setMessage (withdraw q msg now) msg fun m =>
      { m with errorCount := (m.errorCount + 1) % 2 ^ 16 }
    if (q.messages msg).numRetries < (q.messages msg).errorCount then
      notifyFunc q msg false .retryMax
    else requeue q msg accepts

/-! ## Steps -/

inductive QueueOp where
  | startThread (created : Bool)
  | stopThread
  | append (msg : Message) (accepts : Bool)
  | remove (messageId : Nat)
  /-- a `messageQueueRemove` call goes on after its wait -/
  | finishRemove (msg : MessagePtr)
  | clear (order : SentOrder)
  | completed (messageId : Nat) (payload okToRemove : Bool)
  | completedCustomSearch (order : SentOrder) (searchFunc : MessagePtr → Bool)
  | setMaxProcessingMessageCount (max : Nat)
  | setMessageTimeoutSecs (timeoutSecs : Nat)
  | runFilter (filterFunc : MessagePtr → Bool)
  /-- the queue thread takes the lock at the top of its loop -/
  | threadLoop (now : Nat)
  /-- the queue thread goes on after a wait, or ends -/
  | threadResume (timedOut : Bool) (order : SentOrder) (filterFunc : MessagePtr → Bool) (now : Nat)
  /-- `processFunc` returns -/
  | processed (rc : ProcessMessageCode) (accepts : Bool) (now : Nat)

/-- The queue thread goes on after a wait, or ends. -/
def queueThreadResume (q : MessageQueue) (timedOut : Bool) (order : SentOrder)
    (filterFunc : MessagePtr → Bool) (now : Nat) : Option MessageQueue :=
  match q.thread with
  -- whether this wait timed out or not, the sent set is checked
  | .awaitingReply =>
    some { checkSentHashForTimeouts q order filterFunc now with thread := .looping }
  | .awaitingMessage =>
    if timedOut then
      some { checkSentHashForTimeouts q order filterFunc now with thread := .looping }
    else some { q with thread := .looping }
  | .delaying => some { q with thread := .looping }
  -- the end of the thread, after the loop
  | .exiting => some { q with threadState := .notRunning, thread := .absent }
  | .absent | .looping | .processing _ _ => none

/-- One step; the output is the message that a `Completed` call returns.  A step that its
thread cannot take now has no result: `stopThread`, `clear` and `finishRemove` wait while a
message is being processed, and an order is one of the entries of `sentHash`. -/
def queueStep (q : MessageQueue) : QueueOp → Option (MessageQueue × Option MessagePtr)
  | .startThread created => some (messageQueueStartThread q created, none)
  | .stopThread =>
    if q.threadState = .processing then none else some (messageQueueStopThread q, none)
  | .append msg accepts => some (messageQueueAppend q msg accepts, none)
  | .remove messageId => some (messageQueueRemove q messageId, none)
  | .finishRemove msg =>
    if q.threadState ≠ .processing ∧ msg ∈ q.removing then
      some ({ notifyFunc q msg false .remove with removing := q.removing.erase msg }, none)
    else none
  | .clear order =>
    if q.threadState ≠ .processing ∧ order.Perm q.sentHash.items then
      some (messageQueueClear q order, none)
    else none
  | .completed messageId payload okToRemove =>
    some (messageQueueCompleted q messageId payload okToRemove)
  | .completedCustomSearch order searchFunc =>
    if order.Perm q.sentHash.items then
      some (messageQueueCompletedCustomSearch q order searchFunc)
    else none
  | .setMaxProcessingMessageCount max => some (messageQueueSetMaxProcessingMessageCount q max, none)
  | .setMessageTimeoutSecs timeoutSecs =>
    some (messageQueueSetMessageTimeoutSecs q timeoutSecs, none)
  | .runFilter filterFunc => some (messageQueueRunFilter q filterFunc, none)
  | .threadLoop now => if q.thread = .looping then some (queueThreadLoop q now, none) else none
  | .threadResume timedOut order filterFunc now =>
    if order.Perm q.sentHash.items then
      (queueThreadResume q timedOut order filterFunc now).map fun q' => (q', none)
    else none
  | .processed rc accepts now =>
    match q.thread with
    | .processing msg expectsReply =>
      some (queueThreadProcessed q msg expectsReply rc accepts now, none)
    | _ => none

end ZilkerSdk.Comm
