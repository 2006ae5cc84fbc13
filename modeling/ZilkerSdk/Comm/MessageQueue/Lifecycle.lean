import ZilkerSdk.Comm.MessageQueue.QueueSets

/-!
# The life of a message

`messageQueue.h` describes the life of a message: it is queued, processed, perhaps
queued again, and ends by being notified or completed, "mutually exclusive paths
[that] cannot occur at the same time".  The thread gives up the lock while
`processFunc` works on a message, and what happens meanwhile decides whether the
description is true.

* `messageQueueCompleted` may return the message while it is being processed.  If
  `processFunc` then answers anything but success, the thread still takes the
  message for its own: it notifies it a second time or queues it again.
* `messageQueueRemove` takes a message out of the sets first and waits for the
  processing to end afterwards.  The message it holds is in no set meanwhile, and
  if it is the one being processed the thread may queue it again before the call
  notifies it.
-/

namespace ZilkerSdk.Comm

open Types Lib List

variable {q q' : MessageQueue}

/-! ## Places -/

/-- The messages whose life has ended, once for every end. -/
def endings (q : MessageQueue) : List MessagePtr := q.ended.map Prod.fst

/-- The message that only the thread holds.  One that waits for a reply is kept in
`sentHash` while it is being processed. -/
def held (q : MessageQueue) : List MessagePtr :=
  match q.thread with
  | .processing msg false => [msg]
  | _ => []

/-- Where a message can be. -/
inductive Place where
  | allSet
  | sentHash
  | processing
  | ended
  deriving Repr, DecidableEq

def At (q : MessageQueue) (msg : MessagePtr) : Place → Prop
  | .allSet => msg ∈ q.allSet.items
  | .sentHash => msg ∈ sent q
  | .processing => msg ∈ held q
  | .ended => msg ∈ endings q

/-- The documented life of the messages appended so far. -/
structure LifecycleOk (q : MessageQueue) : Prop where
  one_place : ∀ msg < q.appended, ∃! place, At q msg place
  ends_once : (endings q).Nodup
  ended_gone : ∀ msg ∈ endings q,
    msg ∉ q.allSet.items ∧ msg ∉ q.filterSet.items ∧ msg ∉ sent q

/-- In how many places a message is. -/
def tally (q : MessageQueue) (msg : MessagePtr) : Nat :=
  q.allSet.items.count msg + (sent q).count msg + (held q).count msg + (endings q).count msg

/-! ## The parts of the operations -/

section

variable (q : MessageQueue) (msg m : MessagePtr)

/-- Being notified and being completed count alike. -/
theorem tally_ended (ending : Ending) :
    tally { q with ended := q.ended ++ [(msg, ending)] } m = tally q m + [msg].count m := by
  have hended : endings { q with ended := q.ended ++ [(msg, ending)] } = endings q ++ [msg] := by
    simp [endings]
  rw [tally, hended, count_append]
  exact (Nat.add_assoc _ _ _).symm

theorem tally_notifyFunc (success : Bool) (reason : MessageFailureReason) :
    tally (notifyFunc q msg success reason) m = tally q m + [msg].count m :=
  tally_ended q msg m (.notified success reason)

theorem tally_setMessage (f : Message → Message) : tally (setMessage q msg f) m = tally q m := rfl

theorem tally_enqueue (accepts : Bool) :
    tally (enqueue q msg accepts) m = tally q m + [msg].count m := by
  have hall : (enqueue q msg accepts).allSet.items.count m =
      q.allSet.items.count m + [msg].count m := by
    simp [enqueue, count_append]
  have hrest : sent (enqueue q msg accepts) = sent q ∧ held (enqueue q msg accepts) = held q ∧
      endings (enqueue q msg accepts) = endings q := ⟨rfl, rfl, rfl⟩
  simp only [tally, hall, hrest]
  omega

end

variable {item : Nat × MessagePtr} {messageId : Nat} {msg : MessagePtr} {order : SentOrder}
  {expectsReply : Bool} {op : QueueOp} {o : Option MessagePtr}

theorem count_sent_delete (hitem : item ∈ q.sentHash.items) (m : MessagePtr) :
    (sent (deleteSent q item.1)).count m + [item.2].count m = (sent q).count m := by
  have hperm := ((perm_delete hitem).map Prod.snd).count_eq m
  rw [map_cons, count_cons] at hperm
  rw [sent, sent, hperm, count_singleton]
  rfl

theorem tally_deleteSent (hitem : item ∈ q.sentHash.items) (m : MessagePtr) :
    tally (deleteSent q item.1) m + [item.2].count m = tally q m := by
  have hsent := count_sent_delete hitem m
  have hrest : held (deleteSent q item.1) = held q ∧ endings (deleteSent q item.1) = endings q ∧
      (deleteSent q item.1).allSet = q.allSet := ⟨rfl, rfl, rfl⟩
  simp only [tally, hrest]
  omega

theorem tally_deleteSent_of_free (hfree : hashMapGet q.sentHash messageId = none) (m : MessagePtr) :
    tally (deleteSent q messageId) m = tally q m := by
  have hsent : sent (deleteSent q messageId) = sent q := by
    rw [sent, deleteSent, items_delete, filter_ne_of_free (hashMapGet_eq_none_iff.mp hfree)]
    rfl
  have hrest :
      held (deleteSent q messageId) = held q ∧ endings (deleteSent q messageId) = endings q ∧
      (deleteSent q messageId).allSet = q.allSet := ⟨rfl, rfl, rfl⟩
  simp only [tally, hsent, hrest]

/-- Taking out of `allSet` the message that a search finds. -/
theorem tally_shrink {searchFunc : MessagePtr → Bool} {filterSet : IcQueue MessagePtr}
    (hfind : q.allSet.items.find? searchFunc = some msg) (m : MessagePtr) :
    tally { q with allSet := (queueDelete q.allSet searchFunc).2, filterSet := filterSet } m +
      [msg].count m = tally q m := by
  -- erasing one occurrence lowers the count of this message by one and of no other
  have hperm := (perm_cons_erase (mem_of_find?_eq_some hfind)).count_eq m
  rw [count_cons] at hperm
  show (queueDelete q.allSet searchFunc).2.items.count m + (sent q).count m + (held q).count m +
    (endings q).count m + [msg].count m = tally q m
  rw [items_queueDelete, eraseP_eq_erase hfind, count_singleton, tally, hperm]
  omega

theorem held_of_idle (hidle : ∀ msg expectsReply, q.thread ≠ .processing msg expectsReply) :
    held q = [] := by
  unfold held
  split
  · rename_i msg hthread
    exact absurd hthread (hidle msg false)
  · rfl

/-! ## The operations -/

/-- No message is lost or duplicated, none is added, and no `Remove` call is left waiting. -/
structure Conserves (q q' : MessageQueue) : Prop where
  appended : q'.appended = q.appended
  tally : ∀ m, tally q' m = tally q m
  removing : q'.removing = q.removing

theorem Conserves.refl (q : MessageQueue) : Conserves q q := ⟨rfl, fun _ => rfl, rfl⟩

theorem Conserves.trans {q'' : MessageQueue} (h : Conserves q q') (h' : Conserves q' q'') :
    Conserves q q'' :=
  ⟨h'.appended.trans h.appended, fun m => (h'.tally m).trans (h.tally m),
    h'.removing.trans h.removing⟩

theorem conserves_move {state : MqState} {thread : QueueThread}
    (hidle : ∀ msg expectsReply, q.thread ≠ .processing msg expectsReply)
    (hidle' : ∀ msg expectsReply, thread ≠ .processing msg expectsReply) :
    Conserves q { q with threadState := state, thread := thread } := by
  refine ⟨rfl, fun m => ?_, rfl⟩
  have hbefore := held_of_idle hidle
  have hafter := @held_of_idle { q with threadState := state, thread := thread } hidle'
  show q.allSet.items.count m + (sent q).count m + _ + (endings q).count m = tally q m
  rw [hafter, tally, hbefore]

theorem conserves_remove (hwait : q.threadState = .processing →
      queueFind q.allSet (findMessageIdInQueue q messageId) = none ∧
        hashMapGet q.sentHash messageId = none) : Conserves q (messageQueueRemove q messageId) := by
  -- where something is found, the call does not wait and notifies at once
  rcases messageQueueRemove_cases q messageId with
    ⟨msg, hfind, heq⟩ | ⟨-, msg, hget, heq⟩ | ⟨-, -, heq⟩
  · have hidle : q.threadState ≠ .processing := by
      intro hbusy
      simp [(hwait hbusy).1] at hfind
    rw [heq, notifyRemoved, if_neg hidle]
    refine ⟨rfl, fun m => ?_, rfl⟩
    rw [tally_notifyFunc]
    exact tally_shrink hfind m
  · have hidle : q.threadState ≠ .processing := by
      intro hbusy
      simp [(hwait hbusy).2] at hget
    rw [heq, notifyRemoved, deleteSent, if_neg hidle]
    refine ⟨rfl, fun m => ?_, rfl⟩
    rw [tally_notifyFunc]
    exact tally_deleteSent (mem_items_iff.mpr hget) m
  · rw [heq]
    exact ⟨rfl, fun _ => rfl, rfl⟩

theorem conserves_clear (horder : order.Perm q.sentHash.items) :
    Conserves q (messageQueueClear q order) := by
  rw [messageQueueClear_eq]
  refine ⟨rfl, fun m => ?_, rfl⟩
  have hsent : (order.map Prod.snd).count m = (sent q).count m := (horder.map _).count_eq m
  have hended : ∀ msgs : List MessagePtr,
      (msgs.map fun msg => (msg, Ending.notified false .remove)).map Prod.fst = msgs := by
    intro msgs
    rw [map_map]
    exact map_id msgs
  -- both sets are empty afterwards, and their messages are the new ends
  show ([] : List MessagePtr).count m + ([] : List MessagePtr).count m + (held q).count m +
    ((q.ended ++ _).map Prod.fst).count m = tally q m
  rw [map_append, hended, count_append, count_append, hsent, tally, endings]
  simp only [count_nil]
  omega

theorem conserves_complete (hitem : item ∈ q.sentHash.items) :
    Conserves q (completeMessage q item.1 item.2) := by
  refine ⟨rfl, fun m => ?_, rfl⟩
  calc tally (completeMessage q item.1 item.2) m
      = tally (deleteSent q item.1) m + [item.2].count m :=
        tally_ended (deleteSent q item.1) item.2 m .completed
    _ = tally q m := tally_deleteSent hitem m

theorem conserves_checkSentMessage (filterFunc : MessagePtr → Bool) (now : Nat)
    (hitem : item ∈ q.sentHash.items) : Conserves q (checkSentMessage filterFunc now q item) := by
  rcases checkSentMessage_cases filterFunc now q item with heq | ⟨f, -, ⟨reason, heq⟩ | heq⟩ <;>
    rw [heq]
  · exact .refl q
  · refine ⟨rfl, fun m => ?_, rfl⟩
    rw [tally_notifyFunc, ← tally_setMessage q item.2 m f]
    exact tally_deleteSent (q := setMessage q item.2 f) hitem m
  · refine ⟨rfl, fun m => ?_, rfl⟩
    rw [tally_enqueue, ← tally_setMessage q item.2 m f]
    exact tally_deleteSent (q := setMessage q item.2 f) hitem m

/-- Handing a message to `processFunc` puts it in one place, whatever the branch. -/
theorem tally_dispatch (hidle : ∀ msg expectsReply, q.thread ≠ .processing msg expectsReply)
    (msg m : MessagePtr) (now : Nat) :
    tally (dispatch q msg now) m = tally q m + [msg].count m := by
  -- the thread comes from the top of its loop, so it holds nothing yet
  have hheld := held_of_idle hidle
  rcases dispatch_cases q msg now with ⟨-, heq⟩ | ⟨-, ⟨-, heq⟩ | ⟨hget, f, -, heq⟩⟩ <;> rw [heq]
  · show q.allSet.items.count m + (sent q).count m + [msg].count m + (endings q).count m = _
    rw [tally, hheld, count_nil]
    omega
  · exact tally_notifyFunc q msg m _ _
  · have hput : ((hashMapPut q.sentHash (q.messages msg).messageId msg).1.items.map Prod.snd) =
        sent q ++ [msg] := by
      rw [items_put_of_free msg hget, map_append]
      rfl
    show q.allSet.items.count m +
      ((hashMapPut q.sentHash (q.messages msg).messageId msg).1.items.map Prod.snd).count m +
      ([] : List MessagePtr).count m + (endings q).count m = _
    rw [hput, count_append, tally, hheld]
    omega

theorem conserves_threadLoop (h : QueueInv q) (now : Nat) (hthread : q.thread = .looping) :
    Conserves q (queueThreadLoop q now) := by
  have hidle : ∀ msg expectsReply, q.thread ≠ .processing msg expectsReply := by simp [hthread]
  rcases queueThreadLoop_cases q now with heq | ⟨thread, hne, heq⟩ | ⟨msg, hhead, heq⟩ <;> rw [heq]
  · exact .refl q
  · exact conserves_move hidle hne
  · have hmem : msg ∈ q.allSet.items := h.filter_sublist.subset (mem_of_mem_head? hhead)
    have hfind := find?_findMessageInQueue hmem
    refine ⟨?_, fun m => ?_, ?_⟩
    · exact (dispatch_frame _ _ _).1
    · rw [tally_dispatch]
      · exact tally_shrink hfind m
      · exact hidle
    · exact (dispatch_frame _ _ _).2

theorem tally_endProcessing (hthread : q.thread = .processing msg expectsReply) (m : MessagePtr) :
    tally (endProcessing q) m + (if expectsReply then [] else [msg]).count m = tally q m := by
  have hheld : held q = if expectsReply then [] else [msg] := by
    unfold held
    rw [hthread]
    cases expectsReply <;> rfl
  show q.allSet.items.count m + (sent q).count m + ([] : List MessagePtr).count m +
    (endings q).count m + _ = tally q m
  rw [tally, hheld, count_nil]
  omega

section

variable (h : QueueInv q) (hthread : q.thread = .processing msg expectsReply)
  (hstill : expectsReply = true → hashMapContains q.sentHash (q.messages msg).messageId = true)
include h hthread hstill

/-- Dropping the entry of the message back from `processFunc` leaves it in no place, provided
that nobody has taken the entry meanwhile. -/
theorem tally_endProcessing_deleteSent (m : MessagePtr) :
    tally (deleteSent (endProcessing q) (q.messages msg).messageId) m + [msg].count m =
      tally q m := by
  have hin := h.in_process msg expectsReply hthread
  have hend := tally_endProcessing hthread m
  cases hget : hashMapGet q.sentHash (q.messages msg).messageId with
  | some other =>
    have hitem := mem_items_iff.mpr hget
    -- the entry under this id is the message's own, so it waits for a reply
    have hentry := h.sent_entry _ hitem
    obtain rfl : other = msg := h.distinct other hentry.known msg hin.known hentry.keyed.symm
    have hexp : expectsReply = true := hin.expects.symm.trans (h.sent_entry _ hitem).expects
    have hdel := tally_deleteSent (q := endProcessing q) hitem m
    rw [hexp, if_pos rfl, count_nil, Nat.add_zero] at hend
    exact hdel.trans hend
  | none =>
    have hexp : expectsReply = false := by
      cases expectsReply with
      | false => rfl
      | true =>
        have := hstill rfl
        simp [hashMapContains_eq, hget] at this
    rw [hexp] at hend
    rw [tally_deleteSent_of_free (q := endProcessing q) hget]
    exact hend

theorem tally_withdraw (now : Nat) (m : MessagePtr) :
    tally (withdraw (endProcessing q) msg now) m + [msg].count m = tally q m := by
  obtain ⟨f, -, heq⟩ := withdraw_cases (endProcessing q) msg now
  have hin := h.in_process msg expectsReply hthread
  rw [heq]
  split
  · exact tally_endProcessing_deleteSent h hthread hstill m
  · rename_i hexp
    have hexp' : expectsReply = false := by
      rw [← hin.expects]
      simpa [endProcessing] using hexp
    have hend := tally_endProcessing hthread m
    rw [hexp'] at hend
    exact hend

end

theorem tally_requeue (hthread : q.thread = .looping) (msg m : MessagePtr) (accepts : Bool) :
    tally (requeue q msg accepts) m = tally q m + [msg].count m := by
  have hmove := @conserves_move (enqueue q msg accepts) q.threadState
    (if q.threadState = .canceling then .looping else .delaying)
    (by intro m e; show q.thread ≠ _; simp [hthread]) (by intro m e; split <;> simp)
  exact (hmove.tally m).trans (tally_enqueue q msg m accepts)

theorem conserves_processed (h : QueueInv q) {rc : ProcessMessageCode} (accepts : Bool) (now : Nat)
    (hthread : q.thread = .processing msg expectsReply)
    (hstill : rc ≠ .success → expectsReply = true →
      hashMapContains q.sentHash (q.messages msg).messageId = true) :
    Conserves q (queueThreadProcessed q msg expectsReply rc accepts now) := by
  obtain ⟨-, -, happ, hthr, -, hrem⟩ := withdraw_frame (endProcessing q) msg now
  unfold queueThreadProcessed
  -- only an answer of success lets the thread keep off a message taken meanwhile
  cases rc with
  | success =>
    have hend := tally_endProcessing hthread
    cases expectsReply with
    | true => exact ⟨rfl, fun m => by simpa using hend m, rfl⟩
    | false =>
      refine ⟨rfl, fun m => ?_, rfl⟩
      exact (tally_notifyFunc _ _ _ _ _).trans (hend m)
  | successHandled =>
    refine ⟨rfl, fun m => ?_, rfl⟩
    exact (tally_notifyFunc _ _ _ _ _).trans
      (tally_endProcessing_deleteSent h hthread (hstill (by simp)) m)
  | invalid =>
    refine ⟨happ, fun m => ?_, hrem⟩
    exact (tally_notifyFunc _ _ _ _ _).trans (tally_withdraw h hthread (hstill (by simp)) now m)
  | delaySend =>
    refine ⟨happ, fun m => ?_, hrem⟩
    exact (tally_requeue hthr msg m accepts).trans
      (tally_withdraw h hthread (hstill (by simp)) now m)
  | sendFailure =>
    dsimp only
    split
    · refine ⟨happ, fun m => ?_, hrem⟩
      exact (tally_notifyFunc _ _ _ _ _).trans (tally_withdraw h hthread (hstill (by simp)) now m)
    · refine ⟨happ, fun m => ?_, hrem⟩
      exact (tally_requeue (q := setMessage _ msg _) hthr msg m accepts).trans
        (tally_withdraw h hthread (hstill (by simp)) now m)

/-! ## Steps -/

/-- No `Remove` call finds its message while one is being processed. -/
def RemovesWhenIdle (q : MessageQueue) : QueueOp → Prop
  | .remove messageId => q.threadState = .processing →
      queueFind q.allSet (findMessageIdInQueue q messageId) = none ∧
        hashMapGet q.sentHash messageId = none
  | _ => True

/-- `processFunc` answers success for a message whose entry in `sentHash` was taken while it
was being processed. -/
def RepliesToSent (q : MessageQueue) : QueueOp → Prop
  | .processed rc _ _ =>
    match q.thread with
    | .processing msg true =>
      rc = .success ∨ hashMapContains q.sentHash (q.messages msg).messageId = true
    | _ => True
  | _ => True

instance (q : MessageQueue) (op : QueueOp) : Decidable (RemovesWhenIdle q op) := by
  delta RemovesWhenIdle
  split <;> infer_instance

instance (q : MessageQueue) (op : QueueOp) : Decidable (RepliesToSent q op) := by
  delta RepliesToSent
  repeat' split
  all_goals infer_instance

/-- Nobody interferes with a message that is being processed. -/
structure Undisputed (q : MessageQueue) (op : QueueOp) : Prop where
  distinct : DistinctIds q op
  counter : CounterExact q op
  removes : RemovesWhenIdle q op
  replies : RepliesToSent q op

instance (q : MessageQueue) (op : QueueOp) : Decidable (Undisputed q op) :=
  decidable_of_iff
    (DistinctIds q op ∧ CounterExact q op ∧ RemovesWhenIdle q op ∧ RepliesToSent q op)
    ⟨fun h => ⟨h.1, h.2.1, h.2.2.1, h.2.2.2⟩, fun h => ⟨h.1, h.2, h.3, h.4⟩⟩

/-- Every step but `append` conserves the messages. -/
theorem queueStep_conserves (h : QueueInv q) (hremoving : q.removing = []) (hcond : Undisputed q op)
    (hstep : queueStep q op = some (q', o)) :
    Conserves q q' ∨ ∃ msg accepts, q' = messageQueueAppend q msg accepts := by
  cases queueStep_effect hstep with
  | settings => exact .inl ⟨rfl, fun _ => rfl, rfl⟩
  | move _ hidle hstate hthread =>
    obtain ⟨-, hthread'⟩ := h.not_busy hidle
    refine .inl (conserves_move hthread' ?_)
    rcases hthread with rfl | hthread
    · exact hthread'
    · exact hthread
  | append msg accepts => exact .inr ⟨msg, accepts, rfl⟩
  | remove messageId => exact .inl (conserves_remove hcond.removes)
  -- no call ever waits in an undisputed run
  | finishRemove hidle hmem => simp [hremoving] at hmem
  | clear hidle horder => exact .inl (conserves_clear horder)
  | complete _ hitem => exact .inl (conserves_complete hitem)
  | runFilter filterFunc => exact .inl ⟨rfl, fun _ => rfl, rfl⟩
  | loop now hthread => exact .inl (conserves_threadLoop h now hthread)
  | check _ filterFunc now hidle horder =>
    have hcheck := @checkSentHashForTimeouts_invariant q (Conserves q) filterFunc now
      (fun _ _ hq hitem => hq.trans (conserves_checkSentMessage filterFunc now hitem)) (.refl q) _
      horder
    have hthread := @checkSentHashForTimeouts_invariant q
      (fun q => ∀ m e, q.thread ≠ .processing m e) filterFunc now
      (fun q item hq _ => by rw [(thread_checkSentMessage q filterFunc now item).1]; exact hq)
      hidle _ horder
    exact .inl (hcheck.trans (conserves_move hthread (by simp)))
  | @processed rc accepts now msg expectsReply hthread =>
    refine .inl (conserves_processed h accepts now hthread ?_)
    intro hrc hexp
    have hreply := hcond.replies
    subst hexp
    simp only [RepliesToSent, hthread] at hreply
    exact hreply.resolve_left hrc

/-! ## Runs -/

/-- Every appended message is in one place, others in none. -/
def Accounted (q : MessageQueue) : Prop := ∀ m, tally q m = if m < q.appended then 1 else 0

theorem accounted_append (h : Accounted q) (msg : Message) (accepts : Bool) :
    Accounted (messageQueueAppend q msg accepts) := by
  intro m
  have hm := h m
  have htally : tally (messageQueueAppend q msg accepts) m = tally q m + [q.appended].count m :=
    tally_enqueue _ _ _ _
  have happ : (messageQueueAppend q msg accepts).appended = q.appended + 1 := rfl
  rw [htally, happ, hm]
  -- the new message is counted once, every other as before
  by_cases heq : m = q.appended
  · subst heq
    simp
  · have hcount : [q.appended].count m = 0 := count_eq_zero.mpr (by simpa using heq)
    have hlt : m < q.appended + 1 ↔ m < q.appended :=
      ⟨fun hle => Nat.lt_of_le_of_ne (Nat.le_of_lt_succ hle) heq, Nat.lt_succ_of_lt⟩
    simp [hcount, hlt]

/-- What holds in every state of an undisputed run. -/
structure LifecycleInv (q : MessageQueue) : Prop where
  queue : QueueInv q
  accounted : Accounted q
  none_removing : q.removing = []

theorem queueStep_lifecycleInv (h : LifecycleInv q) (hcond : Undisputed q op)
    (hstep : queueStep q op = some (q', o)) : LifecycleInv q' := by
  have hqueue := queueStep_queueInv h.queue hcond.distinct hcond.counter hstep
  rcases queueStep_conserves h.queue h.none_removing hcond hstep with hcons | ⟨msg, accepts, rfl⟩
  · refine ⟨hqueue, fun m => ?_, hcons.removing.trans h.none_removing⟩
    rw [hcons.tally, hcons.appended]
    exact h.accounted m
  · exact ⟨hqueue, accounted_append h.accounted msg accepts, h.none_removing⟩

/-- A message is in a place exactly when it is counted there. -/
theorem LifecycleInv.lifecycleOk (h : LifecycleInv q) : LifecycleOk q := by
  have hone : ∀ m, tally q m ≤ 1 := by
    intro m
    rw [h.accounted m]
    split <;> omega
  have hcount : ∀ {l : List MessagePtr} {m : MessagePtr}, m ∈ l ↔ 0 < l.count m :=
    count_pos_iff.symm
  refine ⟨fun msg hmsg => ?_, ?_, fun msg hmsg => ?_⟩
  · have htally : tally q msg = 1 := by rw [h.accounted msg, if_pos hmsg]
    have hsomewhere : ∃ place, At q msg place := by
      by_contra hnone
      have hzero : ∀ place, ¬ At q msg place := fun place hp => hnone ⟨place, hp⟩
      have h1 := hzero .allSet
      have h2 := hzero .sentHash
      have h3 := hzero .processing
      have h4 := hzero .ended
      simp only [At, hcount] at h1 h2 h3 h4
      unfold tally at htally
      omega
    obtain ⟨place, hplace⟩ := hsomewhere
    refine ⟨place, hplace, fun other hother => ?_⟩
    -- two places would count twice
    unfold tally at htally
    cases place <;> cases other <;> simp only [At, hcount] at hplace hother <;>
      first | rfl | (exfalso; omega)
  -- the ends are a part of the tally, so none occurs twice
  · rw [nodup_iff_count_le_one]
    intro m
    have := hone m
    unfold tally at this
    omega
  -- an end takes up the one place there is
  · have hle := hone msg
    unfold tally at hle
    have hended := hcount.mp hmsg
    have hall : msg ∉ q.allSet.items := by rw [hcount]; omega
    refine ⟨hall, fun hfilter => hall (h.queue.filter_sublist.subset hfilter), ?_⟩
    rw [hcount]
    omega

/-- In every undisputed run each appended message is in exactly one place, ends at most once,
and is in no set after its end. -/
theorem lifecycle_of_undisputed (maxProcessed timeoutSecs : Nat) (ops : List QueueOp)
    {os : List (Option MessagePtr)}
    (hcond : Guarded queueStep Undisputed (messageQueueCreate maxProcessed timeoutSecs) ops)
    (hrun : run queueStep (messageQueueCreate maxProcessed timeoutSecs) ops = some (q, os)) :
    LifecycleOk q := by
  have hinit : LifecycleInv (messageQueueCreate maxProcessed timeoutSecs) :=
    ⟨queueInv_create _ _, fun _ => rfl, rfl⟩
  exact (run_invariant (fun q op q' o h hc hs => queueStep_lifecycleInv (o := o) h hc hs)
    hinit hcond hrun).lifecycleOk

theorem lifecycle_of_undisputed_sampleRun :
    ∃ q os, run queueStep (messageQueueCreate 1 10) sampleRun = some (q, os) ∧ LifecycleOk q :=
  ⟨_, _, rfl, lifecycle_of_undisputed 1 10 sampleRun (by decide +kernel) rfl⟩

/-- A message is removed while it is being processed, and the send fails. -/
def removedWhileProcessing : List QueueOp :=
  [.startThread true, .append (sampleMessage 7) true, .threadLoop 0, .remove 7,
    .processed .sendFailure true 1, .finishRemove 0]

/-- A message is completed while it is being processed, and `processFunc` finds it invalid. -/
def completedWhileProcessing : List QueueOp :=
  [.startThread true, .append (sampleMessage 7) true, .threadLoop 0, .completed 7 true true,
    .processed .invalid true 1]

/-- The removed message has been notified and is in both queues, the completed one has ended
twice. -/
theorem lifecycle_broken :
    (Guarded queueStep DistinctIds (messageQueueCreate 1 10) removedWhileProcessing ∧
      ∃ q os, run queueStep (messageQueueCreate 1 10) removedWhileProcessing = some (q, os) ∧
        0 ∈ endings q ∧ 0 ∈ q.allSet.items ∧ 0 ∈ q.filterSet.items ∧ ¬ LifecycleOk q) ∧
    (Guarded queueStep DistinctIds (messageQueueCreate 1 10) completedWhileProcessing ∧
      ∃ q os, run queueStep (messageQueueCreate 1 10) completedWhileProcessing = some (q, os) ∧
        q.ended = [(0, .completed), (0, .notified false .invalid)] ∧ ¬ LifecycleOk q) := by
  refine ⟨⟨by decide +kernel, _, _, rfl, by decide +kernel, by decide +kernel, by decide +kernel,
    fun h => ?_⟩, ⟨by decide +kernel, _, _, rfl, rfl, fun h => ?_⟩⟩
  · exact (h.ended_gone 0 (by decide +kernel)).1 (by decide +kernel)
  · exact absurd h.ends_once (by decide +kernel)

end ZilkerSdk.Comm
