import ZilkerSdk.Comm.MessageQueue.Effects

/-!
# The three sets of the message queue

`allSet` and `filterSet` are queues of pointers to the same messages and
`sentHash` is a map of others.  Every operation has to change them together: a
message leaves both queues before it enters `sentHash`, and comes back to both
after a failed send or a timeout.
-/

namespace ZilkerSdk.Comm

open Types Lib
open List hiding beq_eq_decide

/-! ## The invariant -/

/-- The messages of `sentHash`. -/
def sent (q : MessageQueue) : List MessagePtr := q.sentHash.items.map Prod.snd

/-- What one entry of `sentHash` satisfies. -/
structure SentEntry (q : MessageQueue) (item : Nat × MessagePtr) : Prop where
  known : item.2 < q.appended
  keyed : item.1 = (q.messages item.2).messageId
  expects : (q.messages item.2).expectsReply = true
  not_queued : item.2 ∉ q.allSet.items

/-- What the message in the hands of `processFunc` satisfies. -/
structure InProcess (q : MessageQueue) (msg : MessagePtr) (expectsReply : Bool) : Prop where
  known : msg < q.appended
  expects : (q.messages msg).expectsReply = expectsReply
  not_queued : msg ∉ q.allSet.items

/-- The sets at every moment at which the lock is free. -/
structure QueueInv (q : MessageQueue) : Prop where
  filter_sublist : q.filterSet.items.Sublist q.allSet.items
  all_nodup : q.allSet.items.Nodup
  all_known : ∀ msg ∈ q.allSet.items, msg < q.appended
  sent_entry : ∀ item ∈ q.sentHash.items, SentEntry q item
  in_process : ∀ msg expectsReply, q.thread = .processing msg expectsReply →
    InProcess q msg expectsReply
  busy : q.threadState = .processing ↔ ∃ msg expectsReply, q.thread = .processing msg expectsReply
  distinct : ∀ a < q.appended, ∀ b < q.appended,
    (q.messages a).messageId = (q.messages b).messageId → a = b

variable {q q' : MessageQueue}

theorem queueInv_create (maxProcessed timeoutSecs : Nat) :
    QueueInv (messageQueueCreate maxProcessed timeoutSecs) where
  filter_sublist := List.Sublist.refl _
  all_nodup := nodup_nil
  all_known := by simp [messageQueueCreate]
  sent_entry := by simp [messageQueueCreate, hashMapCreate]
  in_process := by simp [messageQueueCreate]
  busy := by simp [messageQueueCreate]
  distinct := by simp [messageQueueCreate]

variable {msg : MessagePtr} {item : Nat × MessagePtr} {f : Message → Message} {expectsReply : Bool}
  {op : QueueOp} {o : Option MessagePtr}

section

variable (h : QueueInv q)
include h

/-- The state and the place of the thread tell the same about a message being processed. -/
theorem QueueInv.not_busy (hidle : Idle q) :
    q.threadState ≠ .processing ∧ ∀ msg expectsReply, q.thread ≠ .processing msg expectsReply := by
  rcases hidle with hstate | hthread
  · exact ⟨hstate, fun m e hproc => hstate (h.busy.mpr ⟨m, e, hproc⟩)⟩
  · refine ⟨fun hbusy => ?_, hthread⟩
    obtain ⟨m, e, hproc⟩ := h.busy.mp hbusy
    exact hthread m e hproc

/-! ## What the parts of the operations keep -/

/-- The sets depend on neither the limits nor the waiting calls nor the ends of messages. -/
theorem queueInv_bookkeeping (max secs : Nat) (removing : List MessagePtr)
    (ended : List (MessagePtr × Ending)) :
    QueueInv { q with
      maxProcessedCount := max
      messageTimeoutSecs := secs
      removing := removing
      ended := ended } :=
  { h with
    sent_entry := fun item hitem => { h.sent_entry item hitem with }
    in_process := fun m e hthread => { h.in_process m e hthread with } }

theorem queueInv_notifyFunc (msg : MessagePtr) (success : Bool) (reason : MessageFailureReason) :
    QueueInv (notifyFunc q msg success reason) :=
  queueInv_bookkeeping h _ _ _ _

theorem queueInv_notifyRemoved (msg : MessagePtr) : QueueInv (notifyRemoved q msg) := by
  unfold notifyRemoved
  split
  · exact queueInv_bookkeeping h _ _ _ _
  · exact queueInv_notifyFunc h _ _ _

/-- The message objects in use keep their ids and `expectsReply`, and new ones may come. -/
theorem queueInv_messages {messages : MessagePtr → Message} {appended : Nat}
    (hle : q.appended ≤ appended)
    (hsame : ∀ m < q.appended, (messages m).messageId = (q.messages m).messageId ∧
      (messages m).expectsReply = (q.messages m).expectsReply)
    (hdistinct : ∀ a < appended, ∀ b < appended,
      (messages a).messageId = (messages b).messageId → a = b) :
    QueueInv { q with messages := messages, appended := appended } := by
  refine { h with all_known := ?_, sent_entry := ?_, in_process := ?_, distinct := hdistinct }
  · exact fun m hm => Nat.lt_of_lt_of_le (h.all_known m hm) hle
  · intro item hitem
    have hentry := h.sent_entry item hitem
    obtain ⟨hid, hexp⟩ := hsame item.2 hentry.known
    exact ⟨Nat.lt_of_lt_of_le hentry.known hle, hentry.keyed.trans hid.symm,
      hexp.trans hentry.expects, hentry.not_queued⟩
  · intro m e hthread
    have hin := h.in_process m e hthread
    exact ⟨Nat.lt_of_lt_of_le hin.known hle, (hsame m hin.known).2.trans hin.expects,
      hin.not_queued⟩

theorem queueInv_of_keepsIdentity (msg : MessagePtr) (hf : KeepsIdentity f) :
    QueueInv (setMessage q msg f) := by
  have hsame : ∀ m, ((setMessage q msg f).messages m).messageId = (q.messages m).messageId ∧
      ((setMessage q msg f).messages m).expectsReply = (q.messages m).expectsReply := by
    intro m
    by_cases hm : m = msg
    · subst hm
      simpa [setMessage] using hf (q.messages m)
    · simp [setMessage, hm]
  refine queueInv_messages h (Nat.le_refl _) (fun m _ => hsame m) fun a ha b hb hab => ?_
  exact h.distinct a ha b hb ((hsame a).1.symm.trans (hab.trans (hsame b).1))

theorem queueInv_deleteSent (messageId : Nat) : QueueInv (deleteSent q messageId) :=
  { h with
    sent_entry := fun item hitem => by
      have hmem : item ∈ q.sentHash.items := by
        rw [deleteSent, items_delete] at hitem
        exact mem_of_mem_filter hitem
      exact { h.sent_entry item hmem with }
    in_process := fun m e hthread => { h.in_process m e hthread with } }

theorem queueInv_enqueue (accepts : Bool) (hknown : msg < q.appended) (hall : msg ∉ q.allSet.items)
    (hsent : msg ∉ sent q) (hproc : ∀ e, q.thread ≠ .processing msg e) :
    QueueInv (enqueue q msg accepts) := by
  refine { h with
    filter_sublist := ?_, all_nodup := ?_, all_known := ?_, sent_entry := ?_, in_process := ?_ }
  -- the new message goes to the end of both queues, so the order is kept
  · show (if accepts then queuePush q.filterSet msg else q.filterSet).items.Sublist
      (q.allSet.items ++ [msg])
    split
    · exact h.filter_sublist.append (List.Sublist.refl _)
    · exact h.filter_sublist.trans (sublist_append_left _ _)
  · refine nodup_append.mpr ⟨h.all_nodup, nodup_singleton _, ?_⟩
    intro a ha b hb hab
    have hb' : b = msg := by simpa using hb
    exact hall (hb' ▸ hab ▸ ha)
  · intro m hm
    rcases mem_append.mp hm with hm | hm
    · exact h.all_known m hm
    · have : m = msg := by simpa using hm
      exact this ▸ hknown
  · intro item hitem
    have hentry := h.sent_entry item hitem
    refine { hentry with not_queued := ?_ }
    have hne : item.2 ≠ msg := fun e => hsent (e ▸ mem_map_of_mem hitem)
    simpa [enqueue, hne] using hentry.not_queued
  · intro m e hthread
    have hin := h.in_process m e hthread
    refine ⟨hin.known, hin.expects, ?_⟩
    have hne : m ≠ msg := fun e' => hproc e (e' ▸ hthread)
    simpa [enqueue, hne] using hin.not_queued

theorem queueInv_shrink {allSet filterSet : IcQueue MessagePtr}
    (hall : allSet.items.Sublist q.allSet.items) (hfilter : filterSet.items.Sublist allSet.items) :
    QueueInv { q with allSet := allSet, filterSet := filterSet } where
  __ := h
  filter_sublist := hfilter
  all_nodup := h.all_nodup.sublist hall
  all_known := fun m hm => h.all_known m (hall.subset hm)
  sent_entry := fun item hitem =>
    { h.sent_entry item hitem with
      not_queued := fun hm => (h.sent_entry item hitem).not_queued (hall.subset hm) }
  in_process := fun m e hthread =>
    { h.in_process m e hthread with
      not_queued := fun hm => (h.in_process m e hthread).not_queued (hall.subset hm) }

theorem queueInv_moveThread {state : MqState} {thread : QueueThread} (hstate : state ≠ .processing)
    (hthread : ∀ m e, thread ≠ .processing m e) :
    QueueInv { q with threadState := state, thread := thread } :=
  { h with
    sent_entry := fun item hitem => { h.sent_entry item hitem with }
    in_process := fun m e hm => absurd hm (hthread m e)
    busy := ⟨fun hm => absurd hm hstate, fun ⟨m, e, hm⟩ => absurd hm (hthread m e)⟩ }

/-! ## What the operations keep -/

theorem queueInv_allocate {msg : Message}
    (hfresh : ∀ ptr < q.appended, (q.messages ptr).messageId ≠ msg.messageId) :
    QueueInv { setMessage q q.appended (fun _ => msg) with appended := q.appended + 1 } := by
  -- objects in use are read as before
  have hold : ∀ ptr < q.appended, (setMessage q q.appended fun _ => msg).messages ptr =
      q.messages ptr := by
    intro ptr hptr
    simp [setMessage, Nat.ne_of_lt hptr]
  have hnew : (setMessage q q.appended fun _ => msg).messages q.appended = msg := by
    simp [setMessage]
  refine queueInv_messages h (Nat.le_succ _) (fun m hm => ?_) fun a ha b hb hab => ?_
  · rw [hold m hm]
    exact ⟨rfl, rfl⟩
  · -- two old objects, or one of the two is the new one
    rcases Nat.lt_succ_iff_lt_or_eq.mp ha with ha | rfl
    · rcases Nat.lt_succ_iff_lt_or_eq.mp hb with hb | rfl
      · rw [hold a ha, hold b hb] at hab
        exact h.distinct a ha b hb hab
      · rw [hold a ha, hnew] at hab
        exact absurd hab (hfresh a ha)
    · rcases Nat.lt_succ_iff_lt_or_eq.mp hb with hb | rfl
      · rw [hold b hb, hnew] at hab
        exact absurd hab.symm (hfresh b hb)
      · rfl

theorem queueInv_append {msg : Message} (accepts : Bool)
    (hfresh : ∀ ptr < q.appended, (q.messages ptr).messageId ≠ msg.messageId) :
    QueueInv (messageQueueAppend q msg accepts) := by
  apply queueInv_enqueue (queueInv_allocate h hfresh)
  · exact Nat.lt_succ_self _
  · exact fun hm => Nat.lt_irrefl _ (h.all_known _ hm)
  · intro hm
    obtain ⟨item, hitem, hptr⟩ := mem_map.mp hm
    exact Nat.lt_irrefl _ (hptr ▸ (h.sent_entry item hitem).known)
  · exact fun e hthread => Nat.lt_irrefl _ (h.in_process _ e hthread).known

theorem queueInv_remove (messageId : Nat) : QueueInv (messageQueueRemove q messageId) := by
  have hfilter : ((queueDelete q.filterSet (findMessageIdInQueue q messageId)).2).items.Sublist
      q.allSet.items := by
    rw [items_queueDelete]
    exact eraseP_sublist.trans h.filter_sublist
  have hshrunk : QueueInv { q with
      filterSet := (queueDelete q.filterSet (findMessageIdInQueue q messageId)).2 } :=
    queueInv_shrink h (List.Sublist.refl _) hfilter
  -- found in `allSet`, found in `sentHash`, or not found
  rcases messageQueueRemove_cases q messageId with ⟨msg, -, heq⟩ | ⟨-, msg, -, heq⟩ | ⟨-, -, heq⟩
  · rw [heq]
    apply queueInv_notifyRemoved
    apply queueInv_shrink h
    · rw [items_queueDelete]
      exact eraseP_sublist
    · -- the same search on both queues erases the same message
      rw [items_queueDelete, items_queueDelete]
      exact h.filter_sublist.eraseP
  · rw [heq]
    exact queueInv_notifyRemoved (queueInv_deleteSent hshrunk _) _
  · rw [heq]
    exact hshrunk

theorem queueInv_clear (order : SentOrder)
    (hcount : q.filterSet.size = 0 → q.filterSet.items = []) :
    QueueInv (messageQueueClear q order) := by
  rw [messageQueueClear_eq]
  have hempty := queueInv_shrink h (nil_sublist _ : (queueDrain q.allSet).2.items.Sublist _)
    (by rw [items_queueClear hcount]; exact nil_sublist _ :
      (queueClear q.filterSet).items.Sublist (queueDrain q.allSet).2.items)
  exact { hempty with
    sent_entry := by simp [hashMapCreate]
    in_process := fun m e hthread => { hempty.in_process m e hthread with } }

end

/-- The walk of `messageQueueRunFilter` pushes what the filter accepts, in order. -/
theorem items_runFilter (q : MessageQueue) (filterFunc : MessagePtr → Bool) :
    (messageQueueRunFilter q filterFunc).filterSet.items =
      (queueClear q.filterSet).items ++
        if q.allSet.size = 0 then [] else q.allSet.items.filter filterFunc := by
  have hwalk : ∀ (items : List MessagePtr) (filterSet : IcQueue MessagePtr),
      (items.foldl (fun s item => (iterateQueueAndApplyFilter filterFunc s item).1)
        filterSet).items = filterSet.items ++ items.filter filterFunc := by
    intro items
    -- the walk only appends, so the accepted items follow what was there
    induction items with
    | nil => simp
    | cons item rest ih =>
      intro filterSet
      rw [foldl_cons, ih]
      cases hitem : filterFunc item <;> simp [iterateQueueAndApplyFilter, hitem]
  simp only [messageQueueRunFilter, queueIterate]
  split
  · simp
  · rw [iterateNodes_eq_foldl (fun _ _ => rfl), hwalk]

theorem queueInv_runFilter (h : QueueInv q) (filterFunc : MessagePtr → Bool)
    (hcount : q.filterSet.size = 0 → q.filterSet.items = []) :
    QueueInv (messageQueueRunFilter q filterFunc) := by
  apply queueInv_shrink h (List.Sublist.refl _)
  have hitems := items_runFilter q filterFunc
  rw [items_queueClear hcount, nil_append] at hitems
  show (messageQueueRunFilter q filterFunc).filterSet.items.Sublist q.allSet.items
  rw [hitems]
  split
  · exact nil_sublist _
  · exact filter_sublist

theorem queueInv_checkSentMessage (h : QueueInv q) (filterFunc : MessagePtr → Bool) (now : Nat)
    (hitem : item ∈ q.sentHash.items) (hidle : ∀ m e, q.thread ≠ .processing m e) :
    QueueInv (checkSentMessage filterFunc now q item) := by
  have hentry := h.sent_entry item hitem
  rcases checkSentMessage_cases filterFunc now q item with heq | ⟨f, hf, ⟨reason, heq⟩ | heq⟩ <;>
    rw [heq]
  · exact h
  · exact queueInv_notifyFunc (queueInv_deleteSent (queueInv_of_keepsIdentity h _ hf) _) _ _ _
  · apply queueInv_enqueue (queueInv_deleteSent (queueInv_of_keepsIdentity h _ hf) _) _ hentry.known
      hentry.not_queued
    · -- the entry was the only one of this message
      intro hm
      obtain ⟨other, hother, hptr⟩ := mem_map.mp hm
      rw [deleteSent, items_delete, mem_filter] at hother
      have hkey : other.1 = item.1 := by
        rw [(h.sent_entry other hother.1).keyed, hentry.keyed, hptr]
      simp [hkey] at hother
    · exact hidle item.2

theorem thread_checkSentMessage (q : MessageQueue) (filterFunc : MessagePtr → Bool) (now : Nat)
    (item : Nat × MessagePtr) :
    (checkSentMessage filterFunc now q item).thread = q.thread ∧
      (checkSentMessage filterFunc now q item).threadState = q.threadState := by
  rcases checkSentMessage_cases filterFunc now q item with heq | ⟨f, hf, ⟨reason, heq⟩ | heq⟩ <;>
    rw [heq] <;> exact ⟨rfl, rfl⟩

section

variable (h : QueueInv q)
include h

theorem queueInv_checkSentHashForTimeouts {order : SentOrder} (horder : order.Perm q.sentHash.items)
    (filterFunc : MessagePtr → Bool) (now : Nat) (hidle : ∀ m e, q.thread ≠ .processing m e) :
    QueueInv { checkSentHashForTimeouts q order filterFunc now with thread := .looping } := by
  have hcheck := @checkSentHashForTimeouts_invariant q
    (fun q => QueueInv q ∧ ∀ m e, q.thread ≠ .processing m e) filterFunc now
    (fun q item hq hitem => ⟨queueInv_checkSentMessage hq.1 filterFunc now hitem hq.2, by
      rw [(thread_checkSentMessage q filterFunc now item).1]; exact hq.2⟩) ⟨h, hidle⟩ order horder
  exact queueInv_moveThread hcheck.1 (hcheck.1.not_busy (.inr hcheck.2)).1 (by simp)

/-- A message that is in no set may be handed to `processFunc`. -/
theorem queueInv_dispatch (now : Nat) (hknown : msg < q.appended) (hall : msg ∉ q.allSet.items) :
    QueueInv (dispatch q msg now) := by
  rcases dispatch_cases q msg now with ⟨hexp, heq⟩ | ⟨hexp, ⟨-, heq⟩ | ⟨hget, f, hf, heq⟩⟩ <;>
    rw [heq]
  · refine { h with sent_entry := ?_, in_process := ?_, busy := ?_ }
    · exact fun item hitem => { h.sent_entry item hitem with }
    · intro m e hthread
      obtain ⟨rfl, rfl⟩ := QueueThread.processing.inj hthread
      exact ⟨hknown, hexp, hall⟩
    · exact ⟨fun _ => ⟨msg, false, rfl⟩, fun _ => rfl⟩
  · exact queueInv_notifyFunc h _ _ _
  · have hset := queueInv_of_keepsIdentity h msg hf
    have hmsg : ((setMessage q msg f).messages msg).messageId = (q.messages msg).messageId ∧
        ((setMessage q msg f).messages msg).expectsReply = true := by
      simp [setMessage, (hf _).1, (hf _).2, hexp]
    -- the entry of the message is new, all others are as before
    refine { hset with sent_entry := ?_, in_process := ?_, busy := ?_ }
    · intro item hitem
      rw [items_put_of_free msg hget, mem_append] at hitem
      rcases hitem with hitem | hitem
      · exact { hset.sent_entry item hitem with }
      · obtain rfl : item = ((q.messages msg).messageId, msg) := by simpa using hitem
        exact ⟨hknown, hmsg.1.symm, hmsg.2, hall⟩
    · intro m e hthread
      obtain ⟨rfl, rfl⟩ := QueueThread.processing.inj hthread
      exact ⟨hknown, hmsg.2, hall⟩
    · exact ⟨fun _ => ⟨msg, true, rfl⟩, fun _ => rfl⟩

theorem queueInv_threadLoop (now : Nat) (hthread : q.thread = .looping) :
    QueueInv (queueThreadLoop q now) := by
  have hidle : ∀ m e, q.thread ≠ .processing m e := by simp [hthread]
  rcases queueThreadLoop_cases q now with heq | ⟨thread, hne, heq⟩ | ⟨msg, hhead, heq⟩ <;> rw [heq]
  · exact h
  · exact queueInv_moveThread h (h.not_busy (.inr hidle)).1 hne
  · obtain ⟨rest, hitems⟩ := head?_eq_some_iff.mp hhead
    have hmem : msg ∈ q.allSet.items := h.filter_sublist.subset (hitems ▸ mem_cons_self)
    have hsearch : (findMessageInQueue msg) = fun item => item == msg := by
      funext item
      simp [findMessageInQueue, eq_comm, beq_eq_decide]
    -- the popped message is the one erased from `allSet`
    have hpop : (queuePop q.filterSet).2.items = q.filterSet.items.erase msg := by
      simp [queuePop, hitems]
    have hdel : (queueDelete q.allSet (findMessageInQueue msg)).2.items =
        q.allSet.items.erase msg := by
      rw [items_queueDelete, hsearch, erase_eq_eraseP']
    apply queueInv_dispatch
    · apply queueInv_shrink h
      · rw [hdel]
        exact erase_sublist
      · rw [hdel, hpop]
        exact h.filter_sublist.erase msg
    · exact h.all_known msg hmem
    · rw [hdel]
      exact h.all_nodup.not_mem_erase

theorem queueInv_withdraw (msg : MessagePtr) (now : Nat) :
    QueueInv (withdraw q msg now) ∧ msg ∉ sent (withdraw q msg now) := by
  obtain ⟨f, hf, heq⟩ := withdraw_cases q msg now
  have hset := queueInv_of_keepsIdentity h msg hf
  rw [heq]
  split
  -- entries are keyed by the ids of their messages, so the deletion takes this one
  · refine ⟨queueInv_deleteSent hset _, fun hm => ?_⟩
    obtain ⟨item, hitem, hptr⟩ := mem_map.mp hm
    rw [deleteSent, items_delete, mem_filter] at hitem
    have hkey := (h.sent_entry item hitem.1).keyed
    rw [hptr] at hkey
    simp [hkey] at hitem
  · rename_i hexp
    -- a message without a reply to come was never put into `sentHash`
    refine ⟨hset, fun hm => ?_⟩
    obtain ⟨item, hitem, hptr⟩ := mem_map.mp hm
    exact hexp (hptr ▸ (h.sent_entry item hitem).expects)

theorem queueInv_requeue (accepts : Bool) (hknown : msg < q.appended) (hall : msg ∉ q.allSet.items)
    (hsent : msg ∉ sent q) (hthread : q.thread = .looping) : QueueInv (requeue q msg accepts) := by
  have henq := queueInv_enqueue h accepts hknown hall hsent (by simp [hthread])
  have hidle : Idle q := .inr (by simp [hthread])
  exact queueInv_moveThread henq (h.not_busy hidle).1 (by intro m e; split <;> simp)

theorem queueInv_endProcessing (hthread : q.thread = .processing msg expectsReply) :
    QueueInv (endProcessing q) := by
  unfold endProcessing
  rw [if_pos (h.busy.mpr ⟨msg, expectsReply, hthread⟩)]
  exact queueInv_moveThread h (by simp) (by simp)

theorem queueInv_processed (rc : ProcessMessageCode) (accepts : Bool) (now : Nat)
    (hthread : q.thread = .processing msg expectsReply) :
    QueueInv (queueThreadProcessed q msg expectsReply rc accepts now) := by
  have hin := h.in_process msg expectsReply hthread
  have hback := queueInv_endProcessing h hthread
  obtain ⟨hwith, hsent⟩ := queueInv_withdraw hback msg now
  obtain ⟨hallEq, -, happ, hthr, -⟩ := withdraw_frame (endProcessing q) msg now
  -- the message in the hands of the thread is in no set now
  have hknown : msg < (withdraw (endProcessing q) msg now).appended := happ.symm ▸ hin.known
  have hall : msg ∉ (withdraw (endProcessing q) msg now).allSet.items := by
    rw [hallEq]
    exact hin.not_queued
  unfold queueThreadProcessed
  cases rc with
  | success =>
    dsimp only
    split
    · exact hback
    · exact queueInv_notifyFunc hback _ _ _
  | successHandled => exact queueInv_notifyFunc (queueInv_deleteSent hback _) _ _ _
  | invalid => exact queueInv_notifyFunc hwith _ _ _
  -- the two codes that put the message back into the queue
  | delaySend => exact queueInv_requeue hwith accepts hknown hall hsent hthr
  | sendFailure =>
    have hfail : KeepsIdentity fun m => { m with errorCount := (m.errorCount + 1) % 2 ^ 16 } :=
      fun _ => ⟨rfl, rfl⟩
    have hset := queueInv_of_keepsIdentity hwith msg hfail
    dsimp only
    split
    · exact queueInv_notifyFunc hset _ _ _
    · exact queueInv_requeue hset accepts hknown hall hsent hthr

end

/-! ## Steps and runs -/

/-- Every appended message has an id of its own. -/
def DistinctIds (q : MessageQueue) : QueueOp → Prop
  | .append msg _ => ∀ ptr < q.appended, (q.messages ptr).messageId ≠ msg.messageId
  | _ => True

instance (q : MessageQueue) (op : QueueOp) : Decidable (DistinctIds q op) := by
  delta DistinctIds
  split <;> infer_instance

/-- `filterSet` is emptied only while its counter tells whether it is empty. -/
def CounterExact (q : MessageQueue) : QueueOp → Prop
  | .clear _ | .runFilter _ => q.filterSet.size = 0 → q.filterSet.items = []
  | _ => True

instance (q : MessageQueue) (op : QueueOp) : Decidable (CounterExact q op) := by
  delta CounterExact
  split <;> infer_instance

/-- Every step keeps the sets in order. -/
theorem queueStep_queueInv (h : QueueInv q) (hids : DistinctIds q op) (hcount : CounterExact q op)
    (hstep : queueStep q op = some (q', o)) : QueueInv q' := by
  cases queueStep_effect hstep with
  | settings _ max secs => exact queueInv_bookkeeping h max secs _ _
  | move _ hidle hstate hthread =>
    obtain ⟨hstate', hthread'⟩ := h.not_busy hidle
    apply queueInv_moveThread h
    · rcases hstate with rfl | hstate
      · exact hstate'
      · exact hstate
    · rcases hthread with rfl | hthread
      · exact hthread'
      · exact hthread
  | append msg accepts => exact queueInv_append h accepts hids
  | remove messageId => exact queueInv_remove h messageId
  | finishRemove hidle hmem => exact queueInv_bookkeeping h _ _ _ _
  | clear hidle horder => exact queueInv_clear h _ hcount
  | complete _ hitem => exact queueInv_bookkeeping (queueInv_deleteSent h _) _ _ _ _
  | runFilter filterFunc => exact queueInv_runFilter h filterFunc hcount
  | loop now hthread => exact queueInv_threadLoop h now hthread
  | check _ filterFunc now hidle horder =>
    exact queueInv_checkSentHashForTimeouts h horder filterFunc now hidle
  | processed rc accepts now hthread => exact queueInv_processed h rc accepts now hthread

/-! ## The counters -/

/-- Both queues know how many messages they hold, modulo 65536. -/
def CountersInv (q : MessageQueue) : Prop := Counted q.allSet ∧ Counted q.filterSet

section

variable (h : CountersInv q)
include h

theorem countersInv_enqueue (msg : MessagePtr) (accepts : Bool) :
    CountersInv (enqueue q msg accepts) := by
  refine ⟨h.1.push msg, ?_⟩
  show Counted (if accepts then queuePush q.filterSet msg else q.filterSet)
  split
  · exact h.2.push msg
  · exact h.2

theorem countersInv_notifyRemoved (msg : MessagePtr) : CountersInv (notifyRemoved q msg) := by
  unfold notifyRemoved
  split <;> exact h

theorem countersInv_dispatch (msg : MessagePtr) (now : Nat) : CountersInv (dispatch q msg now) := by
  rcases dispatch_cases q msg now with ⟨-, heq⟩ | ⟨-, ⟨-, heq⟩ | ⟨-, f, -, heq⟩⟩ <;>
    rw [heq] <;> exact h

theorem countersInv_remove (messageId : Nat) (hall : q.allSet.items.length < 2 ^ 16)
    (hfilter : q.filterSet.items.length < 2 ^ 16) :
    CountersInv (messageQueueRemove q messageId) := by
  have hdelFilter := h.2.delete hfilter (findMessageIdInQueue q messageId)
  rcases messageQueueRemove_cases q messageId with ⟨msg, -, heq⟩ | ⟨-, msg, -, heq⟩ | ⟨-, -, heq⟩
  · rw [heq]
    apply countersInv_notifyRemoved
    exact ⟨h.1.delete hall _, hdelFilter⟩
  · rw [heq]
    apply countersInv_notifyRemoved
    exact ⟨h.1, hdelFilter⟩
  · rw [heq]
    exact ⟨h.1, hdelFilter⟩

theorem countersInv_runFilter (filterFunc : MessagePtr → Bool) :
    CountersInv (messageQueueRunFilter q filterFunc) := by
  refine ⟨h.1, ?_⟩
  have hwalk : ∀ (items : List MessagePtr) (filterSet : IcQueue MessagePtr), Counted filterSet →
      Counted (items.foldl (fun s item => (iterateQueueAndApplyFilter filterFunc s item).1)
        filterSet) := by
    intro items
    induction items with
    | nil => exact fun _ hs => hs
    | cons item rest ih =>
      intro filterSet hs
      apply ih
      show Counted (if filterFunc item then queuePush filterSet item else filterSet)
      split
      · exact hs.push item
      · exact hs
  simp only [messageQueueRunFilter, queueIterate]
  split
  · exact h.2.clear
  · rw [iterateNodes_eq_foldl (fun _ _ => rfl)]
    exact hwalk _ _ h.2.clear

theorem countersInv_processed (msg : MessagePtr) (expectsReply : Bool) (rc : ProcessMessageCode)
    (accepts : Bool) (now : Nat) :
    CountersInv (queueThreadProcessed q msg expectsReply rc accepts now) := by
  obtain ⟨hall, hfilter, -, -, -⟩ := withdraw_frame (endProcessing q) msg now
  have hwith : CountersInv (withdraw (endProcessing q) msg now) := by
    unfold CountersInv
    rw [hall, hfilter]
    exact h
  unfold queueThreadProcessed
  cases rc with
  | success =>
    dsimp only
    split <;> exact h
  | successHandled => exact h
  | invalid => exact hwith
  | delaySend => exact countersInv_enqueue hwith msg accepts
  | sendFailure =>
    dsimp only
    split
    · exact hwith
    · exact countersInv_enqueue (q := setMessage _ msg _) hwith msg accepts

theorem queueStep_countersInv (hall : q.allSet.items.length < 2 ^ 16)
    (hfilter : q.filterSet.items.length < 2 ^ 16) (hstep : queueStep q op = some (q', o)) :
    CountersInv q' := by
  cases queueStep_effect hstep with
  | append msg accepts =>
    exact countersInv_enqueue (q := { setMessage q _ _ with appended := _ }) h _ accepts
  | remove messageId => exact countersInv_remove h messageId hall hfilter
  | clear hidle horder =>
    rw [messageQueueClear_eq]
    exact ⟨h.1.drain, h.2.clear⟩
  | runFilter filterFunc => exact countersInv_runFilter h filterFunc
  | loop now hthread =>
    rcases queueThreadLoop_cases q now with heq | ⟨thread, -, heq⟩ | ⟨msg, -, heq⟩ <;> rw [heq]
    · exact h
    · exact h
    · apply countersInv_dispatch
      exact ⟨h.1.delete hall _, h.2.pop hfilter⟩
  -- the loop over the sent messages pushes, and a push keeps the counters
  | check _ filterFunc now hidle horder =>
    refine @checkSentHashForTimeouts_invariant q CountersInv filterFunc now ?_ h _ horder
    intro q₁ item hq₁ _
    rcases checkSentMessage_cases filterFunc now q₁ item with heq | ⟨f, -, ⟨reason, heq⟩ | heq⟩ <;>
      rw [heq]
    · exact hq₁
    · exact hq₁
    · exact countersInv_enqueue (q := deleteSent (setMessage q₁ _ f) _) hq₁ _ _
  | processed rc accepts now hthread => exact countersInv_processed h _ _ rc accepts now
  | _ => exact h

end

/-! ## Runs -/

/-- What the sets look like from outside. -/
structure SetsConsistent (q : MessageQueue) : Prop where
  /-- filtered messages are sent in the order in which they were queued -/
  filter_sublist : q.filterSet.items.Sublist q.allSet.items
  filter_nodup : q.filterSet.items.Nodup
  sent_not_queued : ∀ msg ∈ sent q, msg ∉ q.allSet.items

theorem QueueInv.setsConsistent (h : QueueInv q) : SetsConsistent q where
  filter_sublist := h.filter_sublist
  filter_nodup := h.all_nodup.sublist h.filter_sublist
  sent_not_queued := by
    intro msg hmsg
    obtain ⟨item, hitem, rfl⟩ := mem_map.mp hmsg
    exact (h.sent_entry item hitem).not_queued

/-- Messages have ids of their own and fewer than 65536 of them wait. -/
def FewDistinct (q : MessageQueue) (op : QueueOp) : Prop :=
  DistinctIds q op ∧ q.allSet.items.length < 2 ^ 16

instance (q : MessageQueue) (op : QueueOp) : Decidable (FewDistinct q op) :=
  inferInstanceAs (Decidable (_ ∧ _))

theorem queueStep_setsInv (h : QueueInv q ∧ CountersInv q) (hcond : FewDistinct q op)
    (hstep : queueStep q op = some (q', o)) : QueueInv q' ∧ CountersInv q' := by
  have hfilter : q.filterSet.items.length < 2 ^ 16 :=
    Nat.lt_of_le_of_lt h.1.filter_sublist.length_le hcond.2
  -- below 65536 the counter is the length, so clearing clears
  have hcount : CounterExact q op := by
    cases op <;> first | exact trivial | exact h.2.2.eq_nil hfilter
  exact ⟨queueStep_queueInv h.1 hcond.1 hcount hstep,
    queueStep_countersInv h.2 hcond.2 hfilter hstep⟩

/-- In every run with distinct ids and fewer than 65536 messages waiting the sets are
consistent whenever the lock is free, and `messageQueueRunFilter` leaves in `filterSet`
the messages of `allSet` that the filter accepts. -/
theorem queue_sets_consistent (maxProcessed timeoutSecs : Nat) (ops : List QueueOp)
    {os : List (Option MessagePtr)}
    (hcond : Guarded queueStep FewDistinct (messageQueueCreate maxProcessed timeoutSecs) ops)
    (hrun : run queueStep (messageQueueCreate maxProcessed timeoutSecs) ops = some (q, os)) :
    SetsConsistent q ∧
      ∀ filterFunc q' o, q.allSet.items.length < 2 ^ 16 →
        queueStep q (.runFilter filterFunc) = some (q', o) →
        SetsConsistent q' ∧ q'.filterSet.items = q'.allSet.items.filter filterFunc := by
  have hinit : QueueInv (messageQueueCreate maxProcessed timeoutSecs) ∧
      CountersInv (messageQueueCreate maxProcessed timeoutSecs) :=
    ⟨queueInv_create _ _, counted_queueCreate, counted_queueCreate⟩
  obtain ⟨hinv, hcounters⟩ := run_invariant
    (fun q op q' o h hc hs => queueStep_setsInv (o := o) h hc hs) hinit hcond hrun
  refine ⟨hinv.setsConsistent, ?_⟩
  intro filterFunc q' o hfew hstep
  have hcond' : FewDistinct q (.runFilter filterFunc) := ⟨trivial, hfew⟩
  have hafter := queueStep_setsInv ⟨hinv, hcounters⟩ hcond' hstep
  refine ⟨hafter.1.setsConsistent, ?_⟩
  cases hstep
  rw [items_runFilter, items_queueClear, List.nil_append]
  · -- a counter of zero means that `allSet` is empty
    split
    · rename_i hzero
      have hnil := hcounters.1.eq_nil hfew hzero
      simp [messageQueueRunFilter, hnil]
    · rfl
  · exact hcounters.2.eq_nil (Nat.lt_of_le_of_lt hinv.filter_sublist.length_le hfew)

/-- A message that waits for a reply and may be sent twice. -/
def sampleMessage (messageId : Nat) : Message where
  messageId := messageId
  okToRemoveFromSentQueueCallback := false
  tracker := none
  expectsReply := true
  sentOnceFlag := false
  errorCount := 0
  numRetries := 1

/-- A failed send, a reply that times out, a change of the filter and a completed message. -/
def sampleRun : List QueueOp :=
  [.startThread true, .append (sampleMessage 7) true, .append (sampleMessage 8) false,
    .threadLoop 0, .processed .sendFailure true 1, .threadResume false [] (fun _ => true) 1,
    .threadLoop 1, .processed .success true 2, .runFilter fun _ => true,
    .threadLoop 3, .threadResume true [(7, 0)] (fun _ => true) 100, .threadLoop 100,
    .processed .success true 101, .completed 8 true true]

theorem queue_sets_consistent_sampleRun :
    ∃ q os, run queueStep (messageQueueCreate 1 10) sampleRun = some (q, os) ∧ SetsConsistent q :=
  ⟨_, _, rfl, (queue_sets_consistent 1 10 sampleRun (by decide +kernel) rfl).1⟩

end ZilkerSdk.Comm
