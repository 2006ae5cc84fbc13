import ZilkerSdk.Comm.MessageQueue.Model
import ZilkerSdk.Lib.Run

/-!
# What the operations of the message queue do

One lemma for each operation, saying which of the parts `notifyFunc`,
`setMessage`, `deleteSent`, `enqueue` and `notifyRemoved` it is made of in each of
its branches, and one for a step.  Everything proved about runs of the queue goes
through these.
-/

namespace ZilkerSdk.Comm

open Lib Types List

variable {q q' : MessageQueue}

/-! ## Message objects -/

/-- A change of a message object that leaves the id and `expectsReply` alone. -/
def KeepsIdentity (f : Message → Message) : Prop :=
  ∀ m, (f m).messageId = m.messageId ∧ (f m).expectsReply = m.expectsReply

/-! ## Calls -/

/-- `messageQueueRemove` finds its message in `allSet`, in `sentHash` or not at all. -/
theorem messageQueueRemove_cases (q : MessageQueue) (messageId : Nat) :
    (∃ msg, queueFind q.allSet (findMessageIdInQueue q messageId) = some msg ∧
      messageQueueRemove q messageId = notifyRemoved { q with
        allSet := (queueDelete q.allSet (findMessageIdInQueue q messageId)).2
        filterSet := (queueDelete q.filterSet (findMessageIdInQueue q messageId)).2 } msg) ∨
    (queueFind q.allSet (findMessageIdInQueue q messageId) = none ∧
      ∃ msg, hashMapGet q.sentHash messageId = some msg ∧
        messageQueueRemove q messageId = notifyRemoved (deleteSent { q with
          filterSet := (queueDelete q.filterSet (findMessageIdInQueue q messageId)).2 }
            messageId) msg) ∨
    (queueFind q.allSet (findMessageIdInQueue q messageId) = none ∧
      hashMapGet q.sentHash messageId = none ∧
      messageQueueRemove q messageId = { q with
        filterSet := (queueDelete q.filterSet (findMessageIdInQueue q messageId)).2 }) := by
  cases hfind : queueFind q.allSet (findMessageIdInQueue q messageId) with
  | some msg =>
    left
    have hdel : (queueDelete q.allSet (findMessageIdInQueue q messageId)).1 = true := by
      rw [queueFind] at hfind
      simp [queueDelete, hfind]
    exact ⟨msg, rfl, by simp [messageQueueRemove, hfind, hdel]⟩
  | none =>
    right
    cases hget : hashMapGet q.sentHash messageId with
    | some msg =>
      left
      have hdel : (hashMapDelete q.sentHash messageId).2 = true := by simp [hashMapDelete_snd, hget]
      exact ⟨rfl, msg, rfl, by simp [messageQueueRemove, hfind, hget, hdel]⟩
    | none => exact .inr ⟨rfl, rfl, by simp [messageQueueRemove, hfind, hget]⟩

/-- A `Completed` call returns nothing and changes nothing, or takes one entry out of
`sentHash` and returns its message. -/
def Completes (q : MessageQueue) (r : MessageQueue × Option MessagePtr) : Prop :=
  r = (q, none) ∨
    ∃ item ∈ q.sentHash.items, r = (completeMessage q item.1 item.2, some item.2)

theorem messageQueueCompleted_completes (q : MessageQueue) (messageId : Nat)
    (payload okToRemove : Bool) :
    Completes q (messageQueueCompleted q messageId payload okToRemove) := by
  unfold messageQueueCompleted
  split
  · exact .inl rfl
  · rename_i msg hget
    -- only the answer matters, not who gave it
    generalize (if payload && (q.messages msg).okToRemoveFromSentQueueCallback then okToRemove
      else true) = canDelete
    cases canDelete with
    | false => exact .inl rfl
    | true => exact .inr ⟨(messageId, msg), mem_items_iff.mpr hget, rfl⟩

theorem messageQueueCompletedCustomSearch_completes {order : SentOrder}
    (horder : order.Perm q.sentHash.items) (searchFunc : MessagePtr → Bool) :
    Completes q (messageQueueCompletedCustomSearch q order searchFunc) := by
  unfold messageQueueCompletedCustomSearch
  split
  · exact .inl rfl
  · rename_i item hfind
    exact .inr ⟨item, horder.subset (mem_of_find?_eq_some hfind), rfl⟩

theorem foldl_notifyFunc (msgs : List MessagePtr) (q : MessageQueue) :
    msgs.foldl (fun q msg => notifyFunc q msg false .remove) q =
      { q with ended := q.ended ++ msgs.map fun msg => (msg, .notified false .remove) } := by
  induction msgs generalizing q with
  | nil => simp
  | cons msg rest ih =>
    rw [foldl_cons, ih]
    simp [notifyFunc]

/-- `messageQueueClear` empties the sets and notifies every message of `sentHash` and `allSet`. -/
theorem messageQueueClear_eq (q : MessageQueue) (order : SentOrder) :
    messageQueueClear q order = { q with
      filterSet := queueClear q.filterSet
      sentHash := hashMapCreate
      allSet := (queueDrain q.allSet).2
      ended := q.ended ++
        (order.map Prod.snd ++ q.allSet.items).map fun msg => (msg, .notified false .remove) } := by
  have hsent : order.foldl (fun q item => notifyFunc q item.2 false .remove)
      { q with filterSet := queueClear q.filterSet } =
      (order.map Prod.snd).foldl (fun q msg => notifyFunc q msg false .remove)
        { q with filterSet := queueClear q.filterSet } := by
    rw [foldl_map]
  simp only [messageQueueClear, hsent, foldl_notifyFunc, queueDrain, map_append, append_assoc]

/-! ## The timeout check -/

/-- One turn of the timeout check leaves an entry alone, notifies its message, or puts the
message back into the queue. -/
theorem checkSentMessage_cases (filterFunc : MessagePtr → Bool) (now : Nat) (q : MessageQueue)
    (item : Nat × MessagePtr) :
    checkSentMessage filterFunc now q item = q ∨
    ∃ f, KeepsIdentity f ∧
      ((∃ reason, checkSentMessage filterFunc now q item =
        notifyFunc (deleteSent (setMessage q item.2 f) item.1) item.2 false reason) ∨
      checkSentMessage filterFunc now q item =
        enqueue (deleteSent (setMessage q item.2 f) item.1) item.2 (filterFunc item.2)) := by
  unfold checkSentMessage
  split
  · -- no timer: the message object is not written
    refine .inr ⟨id, fun _ => ⟨rfl, rfl⟩, .inl ⟨.invalid, ?_⟩⟩
    simp [setMessage, notifyFunc, deleteSent]
  · rename_i tracker htracker
    split
    · refine .inr ⟨fun msg => { msg with
        errorCount := (msg.errorCount + 1) % 2 ^ 16
        sentOnceFlag := true
        tracker := some (timeTrackerStop tracker now) }, fun _ => ⟨rfl, rfl⟩, ?_⟩
      dsimp only
      split
      · exact .inr rfl
      · exact .inl ⟨.retryMax, rfl⟩
    · exact .inl rfl

/-- The timeout check touches no entry but its own. -/
theorem mem_sentHash_checkSentMessage (filterFunc : MessagePtr → Bool) (now : Nat)
    {item other : Nat × MessagePtr} (hother : other ∈ q.sentHash.items) (hne : other.1 ≠ item.1) :
    other ∈ (checkSentMessage filterFunc now q item).sentHash.items := by
  have hkept : other ∈ (hashMapDelete q.sentHash item.1).1.items := by
    rw [items_delete]
    exact mem_filter.mpr ⟨hother, by simpa using hne⟩
  rcases checkSentMessage_cases filterFunc now q item with h | ⟨f, -, ⟨reason, h⟩ | h⟩ <;> rw [h]
  · exact hother
  · exact hkept
  · exact hkept

variable {P : MessageQueue → Prop} {filterFunc : MessagePtr → Bool} {now : Nat}

section

variable (hP : ∀ q item, P q → item ∈ q.sentHash.items → P (checkSentMessage filterFunc now q item))
  (hq : P q)
include hP hq

/-- What every turn of the timeout check keeps, the loop keeps.  The induction is on the
entries still to be visited, which are all in `sentHash`. -/
theorem foldl_checkSentMessage_invariant {order : SentOrder} (hkeys : (order.map Prod.fst).Nodup)
    (hmem : ∀ item ∈ order, item ∈ q.sentHash.items) :
    P (order.foldl (checkSentMessage filterFunc now) q) := by
  induction order generalizing q with
  | nil => exact hq
  | cons item rest ih =>
    rw [map_cons, nodup_cons] at hkeys
    apply ih (hP q item hq (hmem item mem_cons_self)) hkeys.2
    intro other hother
    apply mem_sentHash_checkSentMessage filterFunc now (hmem other (mem_cons_of_mem _ hother))
    intro e
    exact hkeys.1 (e ▸ mem_map_of_mem hother)

theorem checkSentHashForTimeouts_invariant {order : SentOrder}
    (horder : order.Perm q.sentHash.items) :
    P (checkSentHashForTimeouts q order filterFunc now) := by
  unfold checkSentHashForTimeouts
  split
  · exact hq
  · exact foldl_checkSentMessage_invariant hP hq
      ((horder.map _).nodup_iff.mpr q.sentHash.nodupKeys) fun item hitem => horder.subset hitem

end

/-! ## The queue thread -/

/-- The thread hands a message to `processFunc`, or notifies it when its id is in use. -/
theorem dispatch_cases (q : MessageQueue) (msg : MessagePtr) (now : Nat) :
    ((q.messages msg).expectsReply = false ∧
      dispatch q msg now = { q with threadState := .processing, thread := .processing msg false }) ∨
    ((q.messages msg).expectsReply = true ∧
      (((hashMapGet q.sentHash (q.messages msg).messageId).isSome ∧
        dispatch q msg now = notifyFunc q msg false .invalid) ∨
      (hashMapGet q.sentHash (q.messages msg).messageId = none ∧
        ∃ f, KeepsIdentity f ∧ dispatch q msg now = { setMessage q msg f with
          sentHash := (hashMapPut q.sentHash (q.messages msg).messageId msg).1
          threadState := .processing
          thread := .processing msg true }))) := by
  cases hexp : (q.messages msg).expectsReply with
  | false => exact .inl ⟨rfl, by simp [dispatch, hexp]⟩
  | true =>
    refine .inr ⟨rfl, ?_⟩
    cases hget : hashMapGet q.sentHash (q.messages msg).messageId with
    | some other => exact .inl ⟨rfl, by simp [dispatch, hexp, hashMapPut_of_taken hget]⟩
    | none =>
      refine .inr ⟨rfl, fun m => { m with
        tracker := some (timeTrackerStart (m.tracker.getD timeTrackerCreate)
          q.messageTimeoutSecs now) }, fun _ => ⟨rfl, rfl⟩, ?_⟩
      -- the id is free, so `hashMapPut` succeeds and the other branch cannot be taken
      have hput := (hashMapPut_snd q.sentHash (q.messages msg).messageId msg).mpr hget
      unfold dispatch
      rw [if_pos hexp]
      split
      · simp_all
      · rename_i sentHash heq
        simp [heq]

theorem dispatch_frame (q : MessageQueue) (msg : MessagePtr) (now : Nat) :
    (dispatch q msg now).appended = q.appended ∧ (dispatch q msg now).removing = q.removing := by
  rcases dispatch_cases q msg now with ⟨-, heq⟩ | ⟨-, ⟨-, heq⟩ | ⟨-, f, -, heq⟩⟩ <;>
    rw [heq] <;> exact ⟨rfl, rfl⟩

theorem find?_findMessageInQueue {items : List MessagePtr} {msg : MessagePtr} (hmem : msg ∈ items) :
    items.find? (findMessageInQueue msg) = some msg := by
  cases hfind : items.find? (findMessageInQueue msg) with
  | none => simpa [findMessageInQueue] using find?_eq_none.mp hfind msg hmem
  | some other =>
    have : msg = other := by simpa [findMessageInQueue] using find?_some hfind
    rw [this]

/-- The thread goes to a wait or to its end, or takes the first message of `filterSet`. -/
theorem queueThreadLoop_cases (q : MessageQueue) (now : Nat) :
    queueThreadLoop q now = q ∨
    (∃ thread, (∀ m e, thread ≠ .processing m e) ∧
      queueThreadLoop q now = { q with thread := thread }) ∨
    ∃ msg, q.filterSet.items.head? = some msg ∧
      queueThreadLoop q now = dispatch { q with
        filterSet := (queuePop q.filterSet).2
        allSet := (queueDelete q.allSet (findMessageInQueue msg)).2 } msg now := by
  unfold queueThreadLoop
  split
  · exact .inr (.inl ⟨.exiting, by simp, rfl⟩)
  · split
    · exact .inr (.inl ⟨.awaitingReply, by simp, rfl⟩)
    · split
      · exact .inr (.inl ⟨.awaitingMessage, by simp, rfl⟩)
      -- `queuePop` decides by the nodes, not by the counter that was just tested
      · cases hitems : q.filterSet.items with
        | nil => exact .inl (by simp [queuePop, hitems])
        | cons msg rest => exact .inr (.inr ⟨msg, rfl, by simp [queuePop, hitems]⟩)

theorem withdraw_cases (q : MessageQueue) (msg : MessagePtr) (now : Nat) :
    ∃ f, KeepsIdentity f ∧
      withdraw q msg now = if (q.messages msg).expectsReply then
        deleteSent (setMessage q msg f) (q.messages msg).messageId else setMessage q msg f := by
  refine ⟨fun m => { m with tracker := m.tracker.map (timeTrackerStop · now) },
    fun _ => ⟨rfl, rfl⟩, ?_⟩
  simp [withdraw, setMessage]

theorem withdraw_frame (q : MessageQueue) (msg : MessagePtr) (now : Nat) :
    (withdraw q msg now).allSet = q.allSet ∧ (withdraw q msg now).filterSet = q.filterSet ∧
      (withdraw q msg now).appended = q.appended ∧ (withdraw q msg now).thread = q.thread ∧
      (withdraw q msg now).threadState = q.threadState ∧
      (withdraw q msg now).removing = q.removing := by
  obtain ⟨f, -, heq⟩ := withdraw_cases q msg now
  rw [heq]
  split <;> exact ⟨rfl, rfl, rfl, rfl, rfl, rfl⟩

/-! ## Steps -/

/-- The queue thread is not in `processFunc`. -/
def Idle (q : MessageQueue) : Prop :=
  q.threadState ≠ .processing ∨ ∀ msg expectsReply, q.thread ≠ .processing msg expectsReply

/-- What a step can do. -/
inductive Effect (q : MessageQueue) : QueueOp → MessageQueue → Prop where
  /-- the limits change, or nothing -/
  | settings (op : QueueOp) (max secs : Nat) :
      Effect q op { q with maxProcessedCount := max, messageTimeoutSecs := secs }
  /-- the thread is started or stopped, or moves on without touching a message -/
  | move (op : QueueOp) {state : MqState} {thread : QueueThread} (hidle : Idle q)
      (hstate : state = q.threadState ∨ state ≠ .processing)
      (hthread : thread = q.thread ∨ ∀ msg expectsReply, thread ≠ .processing msg expectsReply) :
      Effect q op { q with threadState := state, thread := thread }
  | append (msg : Message) (accepts : Bool) :
      Effect q (.append msg accepts) (messageQueueAppend q msg accepts)
  | remove (messageId : Nat) : Effect q (.remove messageId) (messageQueueRemove q messageId)
  | finishRemove {msg : MessagePtr} (hidle : q.threadState ≠ .processing)
      (hmem : msg ∈ q.removing) :
      Effect q (.finishRemove msg)
        { notifyFunc q msg false .remove with removing := q.removing.erase msg }
  | clear {order : SentOrder} (hidle : q.threadState ≠ .processing)
      (horder : order.Perm q.sentHash.items) : Effect q (.clear order) (messageQueueClear q order)
  | complete (op : QueueOp) {item : Nat × MessagePtr} (hitem : item ∈ q.sentHash.items) :
      Effect q op (completeMessage q item.1 item.2)
  | runFilter (filterFunc : MessagePtr → Bool) :
      Effect q (.runFilter filterFunc) (messageQueueRunFilter q filterFunc)
  | loop (now : Nat) (hthread : q.thread = .looping) :
      Effect q (.threadLoop now) (queueThreadLoop q now)
  | check (op : QueueOp) {order : SentOrder} (filterFunc : MessagePtr → Bool) (now : Nat)
      (hidle : ∀ msg expectsReply, q.thread ≠ .processing msg expectsReply)
      (horder : order.Perm q.sentHash.items) :
      Effect q op { checkSentHashForTimeouts q order filterFunc now with thread := .looping }
  | processed (rc : ProcessMessageCode) (accepts : Bool) (now : Nat) {msg : MessagePtr}
      {expectsReply : Bool} (hthread : q.thread = .processing msg expectsReply) :
      Effect q (.processed rc accepts now) (queueThreadProcessed q msg expectsReply rc accepts now)

theorem Effect.of_completes {r : MessageQueue × Option MessagePtr} (op : QueueOp)
    (hr : Completes q r) : Effect q op r.1 := by
  rcases hr with rfl | ⟨item, hitem, rfl⟩
  · exact .settings op q.maxProcessedCount q.messageTimeoutSecs
  · exact .complete op hitem

theorem queueThreadResume_effect (op : QueueOp) {timedOut : Bool} {order : SentOrder}
    (horder : order.Perm q.sentHash.items)
    (heq : queueThreadResume q timedOut order filterFunc now = some q') : Effect q op q' := by
  revert heq
  fun_cases queueThreadResume q timedOut order filterFunc now <;> rintro ⟨⟩
  case case1 hthread => exact .check op filterFunc now (by simp [hthread]) horder
  case case2 hthread _ => exact .check op filterFunc now (by simp [hthread]) horder
  case case3 hthread _ => exact .move op (.inr (by simp [hthread])) (.inl rfl) (.inr (by simp))
  case case4 hthread => exact .move op (.inr (by simp [hthread])) (.inl rfl) (.inr (by simp))
  case case5 hthread => exact .move op (.inr (by simp [hthread])) (.inr (by simp)) (.inr (by simp))

theorem queueStep_effect {op : QueueOp} {o : Option MessagePtr}
    (hstep : queueStep q op = some (q', o)) : Effect q op q' := by
  revert hstep
  fun_cases queueStep q op <;> intro hstep
  case case10 messageId payload okToRemove =>
    have := Effect.of_completes (.completed messageId payload okToRemove)
      (messageQueueCompleted_completes q messageId payload okToRemove)
    rwa [Option.some.inj hstep] at this
  case case11 order searchFunc horder =>
    have := Effect.of_completes (.completedCustomSearch order searchFunc)
      (messageQueueCompletedCustomSearch_completes horder searchFunc)
    rwa [Option.some.inj hstep] at this
  case case18 horder =>
    obtain ⟨q₁, hq₁, hpair⟩ := Option.map_eq_some_iff.mp hstep
    rw [← (Prod.mk.inj hpair).1]
    exact queueThreadResume_effect _ horder hq₁
  -- the other operations are possible whenever they are enabled
  all_goals obtain ⟨⟩ := hstep
  case case1 created =>
    unfold messageQueueStartThread
    split
    · rename_i hstate
      refine .move _ (.inl (by simp [hstate])) (.inr (by simp)) (.inr ?_)
      intro m e
      split <;> simp
    · exact .settings _ q.maxProcessedCount q.messageTimeoutSecs
  case case3 hidle =>
    unfold messageQueueStopThread
    split
    · exact .move _ (.inl hidle) (.inr (by simp)) (.inl rfl)
    · exact .settings _ q.maxProcessedCount q.messageTimeoutSecs
  case case4 msg accepts => exact .append msg accepts
  case case5 messageId => exact .remove messageId
  case case6 h => exact .finishRemove h.1 h.2
  case case8 h => exact .clear h.1 h.2
  case case13 max =>
    unfold messageQueueSetMaxProcessingMessageCount
    split
    · exact .settings _ max q.messageTimeoutSecs
    · exact .settings _ q.maxProcessedCount q.messageTimeoutSecs
  case case14 timeoutSecs =>
    unfold messageQueueSetMessageTimeoutSecs
    split
    · exact .settings _ q.maxProcessedCount timeoutSecs
    · exact .settings _ q.maxProcessedCount q.messageTimeoutSecs
  case case15 filterFunc => exact .runFilter filterFunc
  case case16 now hthread => exact .loop now hthread
  case case20 rc accepts now _ _ hthread => exact .processed rc accepts now hthread

end ZilkerSdk.Comm
