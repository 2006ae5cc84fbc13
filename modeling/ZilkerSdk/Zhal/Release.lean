import ZilkerSdk.Zhal.BusyCounter
import ZilkerSdk.Zhal.Matching

/-!
# Work items are released once

A work item is freed by the requester that has made it, unless its flag `timedOut` says that the
worker will do it.  The requester sets the flag when it has given up and has found the item neither
in `asyncRequests` nor in the queue: then, so the comment in `zhalSendRequest`, the worker has taken
it as available work.  There are two more things that may have happened:

* the thread that handles the response, or the worker after a failed transmission, has taken the
  item out of `asyncRequests`, and the wait ends with a timeout before the response is handed over,
  or although it was.  Then nobody frees the item.
* the worker frees an abandoned item as soon as it gets the mutex, while the requester that has
  given the mutex back is still to look at the flag.
-/

namespace ZilkerSdk.Zhal

open Lib Option
open Types

/-! ## Destroying items -/

def Requester.hasReturned : Requester → Bool
  | .returned _ => true
  | _ => false

/-- The item that a step destroys. -/
def destroys (s : ZhalState) : ZhalOp → Option Nat
  | .leave i => if s.items[i]?.any fun item => !item.timedOut then some i else none
  | .takeItem => s.availableWork.head?.filter fun i => s.items[i]?.any (·.timedOut)
  | _ => none

/-- The steps, each with the item that it destroys. -/
def releaseStep (s : ZhalState) (op : ZhalOp) : Option (ZhalState × Option Nat) :=
  (zhalStep s op).map fun r => (r.1, destroys s op)

/-- The item that a step of a thread is about to read or to write, going by where the thread
stands. -/
def touches (s : ZhalState) : ZhalOp → Option Nat
  | .enqueue i | .timeOut i | .timeOutQueue i | .wake i | .leave i =>
    if s.items[i]?.any fun item => !item.requester.hasReturned then some i else none
  | .takeItem => s.availableWork.head?
  | .markBusy | .xmitDone _ | .abortRequest | .clearBusy =>
    match s.worker with
    | .processing i _ => some i
    | _ => none
  | .releaseQueue h _ | .deliver h _ =>
    match stageOf s.handlers h with
    | some (.claimed i) | some (.delivering i) => some i
    | _ => none
  | .sendRequest _ | .beginCollect | .collect _ | .endCollect | .finishWork | .receive _ => none

/-- The request has not returned, or a step of the worker or of a response is pending for it. -/
def Pending (s : ZhalState) (i : Nat) (item : WorkItem) : Prop :=
  item.requester.hasReturned = false ∨ i ∈ queueOf s.deviceQueues item.eui64 ∨
    i ∈ s.availableWork ∨ s.worker.holds i = true ∨
    hashMapGet s.asyncRequests (requestIdOf i) = some i ∨
    (∃ handler ∈ s.handlers, handler.stage = .claimed i) ∨
    ∃ handler ∈ s.handlers, handler.stage = .delivering i

instance (s : ZhalState) (i : Nat) (item : WorkItem) : Decidable (Pending s i item) :=
  inferInstanceAs (Decidable (_ ∨ _))

def freedAt (s : ZhalState) (i : Nat) : Nat := (s.items[i]?.any (·.freed)).toNat

section

variable {s s' : ZhalState} {op : ZhalOp} {lives : List Life} {i : Nat} {item item' : WorkItem}
  {worker : Worker} {items : List WorkItem} {queue : UInt64 → List Nat} {q : DeviceQueue}

/-- A step that changes an item adds to the freed items what it does to this one. -/
theorem freedAt_set {n : Nat} (hitem : s.items[i]? = some item)
    (hitems : s'.items = s.items.set i item') (hfreed : item'.freed.toNat = item.freed.toNat + n)
    (j : Nat) : freedAt s' j = freedAt s j + if i = j then n else 0 := by
  unfold freedAt
  rw [hitems, getElem?_update hitem]
  by_cases hj : j = i
  · subst hj
    simpa [hitem] using hfreed
  · simp [hj, Ne.symm hj]

/-- The freed items are those that were destroyed, each as often as that. -/
theorem freedAt_step (hstep : Transition s op s') (j : Nat) :
    freedAt s' j = freedAt s j + (destroys s op == some j).toNat := by
  -- most steps leave the mark of every item as it is
  have hkept : ∀ {i : Nat} {item item' : WorkItem}, s.items[i]? = some item →
      s'.items = s.items.set i item' → item'.freed = item.freed → destroys s op = none →
      freedAt s' j = freedAt s j + (destroys s op == some j).toNat := by
    intro i item item' hitem hitems hfreed hnone
    simpa [hnone] using freedAt_set (n := 0) hitem hitems (by rw [hfreed, Nat.add_zero]) j
  cases hstep with
  | sendRequest =>
    simp only [freedAt, getElem?_spawn]
    split
    · rename_i hj
      simp [hj, newItem, destroys]
    · simp [destroys]
  | enqueue hitem | timeOut hitem | timeOutQueue hitem | wake hitem | clearBusy _ hitem
  | deliver _ _ hitem => exact hkept hitem rfl rfl rfl
  | @leave i item result hitem hlive _ =>
    have hfreed : (!item.timedOut).toNat = item.freed.toNat + (!item.timedOut).toNat := by
      simp [hlive]
    rw [freedAt_set hitem rfl hfreed]
    simp only [destroys, hitem, any_some]
    by_cases hj : i = j <;> cases item.timedOut <;> simp [hj]
  | @takeTimedOut i rest item _ hwork hitem hlive _ htimedOut =>
    have hfreed : true.toNat = item.freed.toNat + 1 := by
      rw [hlive]
      rfl
    rw [freedAt_set hitem rfl hfreed]
    simp only [destroys, hwork, List.head?_cons, filter_some, hitem, any_some, htimedOut]
    by_cases hj : i = j <;> simp [hj]
  | takeItem _ hwork hitem _ _ htimedOut =>
    simp [freedAt, destroys, hwork, hitem, htimedOut, Option.filter]
  | _ => rfl

/-! ## The steps that release an item to nobody, or too early -/

/-- A requester that gives up finds its item in `asyncRequests`, in the queue or among the available
work, and the worker finds that the requester of an abandoned item has returned. -/
def Releases (s : ZhalState) : ZhalOp → Prop
  | .timeOut i =>
    hashMapGet s.asyncRequests (requestIdOf i) ≠ none ∨
      ∀ item ∈ s.items[i]?, i ∈ queueOf s.deviceQueues item.eui64 ∨ i ∈ s.availableWork
  | .takeItem =>
    ∀ i ∈ s.availableWork.head?, ∀ item ∈ s.items[i]?,
      item.timedOut = true → item.requester.hasReturned = true
  | _ => True

instance (s : ZhalState) (op : ZhalOp) : Decidable (Releases s op) := by
  delta Releases
  split <;> infer_instance

def KeepsOwner (s : ZhalState) (op : ZhalOp) : Prop := KeepsTrack s op ∧ Releases s op

instance (s : ZhalState) (op : ZhalOp) : Decidable (KeepsOwner s op) :=
  inferInstanceAs (Decidable (_ ∧ _))

/-! ## Owners -/

/-- Who will free an item: its requester, until it has returned, or the worker, if it has been
abandoned. -/
structure OwnedItem (queue : UInt64 → List Nat) (available : List Nat) (i : Nat)
    (item : WorkItem) : Prop where
  freed : item.freed = true → item.requester.hasReturned = true
  abandoned : item.freed = false → item.timedOut = true → i ∈ available
  own : item.freed = false → item.timedOut = false → item.requester.hasReturned = false
  /-- an item that may still be abandoned is where the worker will find it -/
  listed : item.requester = .timingOut false → i ∈ queue item.eui64 ∨ i ∈ available

/-- The requester of the item the worker is working on waits. -/
def Waited (worker : Worker) (items : List WorkItem) : Prop :=
  ∀ i, worker.holds i = true → ∃ item, items[i]? = some item ∧ item.requester = .waiting

structure Owned (s : ZhalState) : Prop where
  items : EachAt (OwnedItem (queueOf s.deviceQueues) s.availableWork) s.items
  worker : Waited s.worker s.items

/-- The item the worker is working on stays as it is, or only its requester does. -/
theorem Waited.update (h : Waited worker items) (hitem : items[i]? = some item)
    (hkept : item'.requester = item.requester ∨ worker.holds i = false ∨
      item.requester ≠ .waiting) : Waited worker (items.set i item') := by
  intro j hj
  obtain ⟨other, hother, hwaiting⟩ := h j hj
  rw [getElem?_update hitem]
  split
  · rename_i hji
    subst hji
    cases some.inj (hitem.symm.trans hother)
    rcases hkept with hsame | hfree | hnot
    · exact ⟨item', rfl, hsame.trans hwaiting⟩
    · simp [hj] at hfree
    · exact absurd hwaiting hnot
  · exact ⟨other, hother, hwaiting⟩

theorem Waited.spawn (h : Waited worker items) (item : WorkItem) :
    Waited worker (items ++ [item]) := by
  intro j hj
  obtain ⟨other, hother, hwaiting⟩ := h j hj
  have hlt := (List.getElem?_eq_some_iff.mp hother).1
  exact ⟨other, by rw [List.getElem?_append_left hlt, hother], hwaiting⟩

theorem waited_of_not_holds (items : List WorkItem) (h : ∀ i, worker.holds i = false) :
    Waited worker items :=
  fun i hi => by simp [h i] at hi

/-- The queues and the available work change, but not for the requests that count. -/
theorem OwnedItem.mono {queue' : UInt64 → List Nat} {available available' : List Nat}
    (h : OwnedItem queue available i item) (havailable : i ∈ available → i ∈ available')
    (hqueue : i ∈ queue item.eui64 → i ∈ queue' item.eui64 ∨ i ∈ available') :
    OwnedItem queue' available' i item where
  __ := h
  abandoned hlive ht := havailable (h.abandoned hlive ht)
  listed hreq := (h.listed hreq).elim hqueue fun hi => .inr (havailable hi)

/-- The requester of an item that it will free itself makes a step and does not return. -/
theorem OwnedItem.goOn {available : List Nat} {requester : Requester}
    (h : OwnedItem queue available i item) (hbefore : item.requester.hasReturned = false)
    (hafter : requester.hasReturned = false)
    (hlisted : requester = .timingOut false → i ∈ queue item.eui64 ∨ i ∈ available) :
    OwnedItem queue available i { item with requester := requester } where
  freed hfreed := by
    rw [h.freed hfreed] at hbefore
    cases hbefore
  abandoned := h.abandoned
  own _ _ := hafter
  listed := hlisted

theorem mem_queueOf_modify {queues : IcHashMap UInt64 DeviceQueue} {d e : UInt64} {P : Prop}
    {f : DeviceQueue → DeviceQueue}
    (hf : ∀ q, hashMapGet queues d = some q → i ∈ q.queue → i ∈ (f q).queue ∨ P)
    (h : i ∈ queueOf queues e) : i ∈ queueOf (hashMapModify queues d f) e ∨ P := by
  rw [queueOf_modify]
  split
  · rename_i he
    subst he
    cases hq : hashMapGet queues e with
    | none => simp [queueOf, hq] at h
    | some q => exact hf q hq (by simpa [queueOf, hq] using h)
  · exact .inl h

theorem owned_init : Owned zhalInit where
  items := eachAt_nil
  worker := waited_of_not_holds _ fun _ => rfl

theorem Owned.timeOutQueue {didDelete : Bool} (h : Owned s) (hitem : s.items[i]? = some item)
    (hq : hashMapGet s.deviceQueues item.eui64 = some q)
    (hreq : item.requester = .timingOut didDelete) :
    EachAt (OwnedItem
      (queueOf (hashMapModify s.deviceQueues item.eui64 (abandonedQueue i didDelete)))
        s.availableWork)
      (s.items.set i (abandonedItem item didDelete (decide (i ∈ q.queue)))) := by
  have hold := h.items i item hitem
  intro j other hother
  rw [getElem?_update hitem] at hother
  split at hother
  · rename_i hj
    subst hj
    cases hother
    refine ⟨fun hfreed => ?_, fun hlive ht => ?_, fun _ _ => rfl, fun hlist => ?_⟩
    · have := hold.freed hfreed
      simp [hreq, Requester.hasReturned] at this
    · -- it has been abandoned before, or it was in neither place and so the worker has it
      simp only [abandonedItem, Bool.or_eq_true, Bool.and_eq_true, Bool.not_eq_true',
        decide_eq_false_iff_not] at ht
      rcases ht with ht | ⟨hdelete, hnot⟩
      · exact hold.abandoned hlive ht
      · apply (hold.listed (by rw [hreq, hdelete])).resolve_left
        simpa [queueOf, hq] using hnot
    · cases hlist
  · rename_i hj
    refine (h.items j other hother).mono id (mem_queueOf_modify fun q _ hmem => .inl ?_)
    simpa [abandonedQueue] using (List.mem_erase_of_ne hj).mpr hmem

theorem Owned.collect {d : UInt64} (h : Owned s) (hq : hashMapGet s.deviceQueues d = some q) :
    EachAt (OwnedItem (queueOf (hashMapModify s.deviceQueues d fun q => (popAvailable q).1))
      (s.availableWork ++ (popAvailable q).2)) s.items := by
  refine h.items.mono fun i item _ hold =>
    hold.mono (List.mem_append_left _) (mem_queueOf_modify fun q' hq' hmem => ?_)
  obtain rfl := some.inj (hq.symm.trans hq')
  -- the head of the queue is what becomes available
  rcases popAvailable_cases q with ⟨j, rest, -, hqueue, hpop⟩ | hpop
  · rw [hqueue, List.mem_cons] at hmem
    rcases hmem with rfl | hmem
    · simp [hpop]
    · simp [hpop, hmem]
  · simp [hpop, hmem]

/-- An item that the worker takes from the available work is no longer there for others. -/
theorem OwnedItem.rest {j : Nat} {rest : List Nat} (h : OwnedItem queue (i :: rest) j item)
    (hne : j ≠ i) : OwnedItem queue rest j item := by
  have hrest : j ∈ i :: rest → j ∈ rest := fun hj => (List.mem_cons.mp hj).resolve_left hne
  exact h.mono hrest .inl

theorem Owned.enqueue (h : Owned s) (hitem : s.items[i]? = some item)
    (hreq : item.requester = .preparing) :
    EachAt (OwnedItem (queueOf (hashMapModify s.deviceQueues item.eui64 fun q =>
        { q with queue := q.queue ++ [i] })) s.availableWork)
      (s.items.set i { item with requester := .waiting }) := by
  have hwaits : OwnedItem (queueOf s.deviceQueues) s.availableWork i
      { item with requester := .waiting } :=
    (h.items i item hitem).goOn (by rw [hreq]; rfl) rfl (by simp)
  refine (h.items.update hitem hwaits).mono fun j other _ hold => hold.mono id ?_
  exact mem_queueOf_modify fun q _ hmem => .inl (List.mem_append_left _ hmem)

theorem Owned.timeOut (h : Owned s) (hcond : Releases s (.timeOut i))
    (hitem : s.items[i]? = some item) (hreq : item.requester = .waiting) :
    EachAt (OwnedItem (queueOf s.deviceQueues) s.availableWork) (s.items.set i { item with
      requester := .timingOut (hashMapGet s.asyncRequests (requestIdOf i)).isSome }) := by
  apply h.items.update hitem
  refine (h.items i item hitem).goOn (by rw [hreq]; rfl) rfl fun hnone => ?_
  -- it was not in `asyncRequests`, so it is in one of the other places
  rcases hcond with hasync | hlisted
  · simp_all
  · exact hlisted item hitem

theorem Owned.leave {result : Option Nat} {heir : Nat} (h : Owned s)
    (hitem : s.items[i]? = some item) (hlive : item.freed = false) :
    EachAt (OwnedItem (queueOf s.deviceQueues) s.availableWork) (s.items.set i { item with
      freed := !item.timedOut, heir := heir, requester := .returned result }) := by
  apply h.items.update hitem
  have hold := h.items i item hitem
  refine ⟨fun _ => rfl, fun _ htimedOut => hold.abandoned hlive htimedOut, ?_, by simp⟩
  intro hkept (htimedOut : item.timedOut = false)
  simp [htimedOut] at hkept

/-- The worker frees an item whose requester has returned. -/
theorem Owned.takeTimedOut {rest : List Nat} {heir : Nat} (h : Owned s)
    (hwork : s.availableWork = i :: rest) (hitem : s.items[i]? = some item)
    (hreturned : item.requester.hasReturned = true) :
    EachAt (OwnedItem (queueOf s.deviceQueues) rest)
      (s.items.set i { item with freed := true, heir := heir }) := by
  intro j other hother
  rw [getElem?_update hitem] at hother
  split at hother
  · cases hother
    refine ⟨fun _ => hreturned, by simp, by simp, fun hreq => ?_⟩
    rw [hreq] at hreturned
    cases hreturned
  · have hold := h.items j other hother
    rw [hwork] at hold
    exact hold.rest ‹_›

theorem Owned.takeItem {rest : List Nat} (h : Owned s) (hwork : s.availableWork = i :: rest)
    (hitem : s.items[i]? = some item) (htimedOut : item.timedOut = false)
    (hwaiting : item.requester = .waiting) :
    EachAt (OwnedItem (queueOf s.deviceQueues) rest) s.items := by
  intro j other hother
  have hold := h.items j other hother
  by_cases hj : j = i
  · subst hj
    cases some.inj (hitem.symm.trans hother)
    refine ⟨hold.freed, fun _ htrue => ?_, hold.own, fun hreq => ?_⟩
    · simp [htimedOut] at htrue
    · simp [hwaiting] at hreq
  · rw [hwork] at hold
    exact hold.rest hj

/-- The requester of an item that is available neither holds the mutex nor has given up. -/
theorem Traced.waiting_of_available {rest : List Nat} (ht : Traced s lives)
    (hwork : s.availableWork = i :: rest) (hitem : s.items[i]? = some item)
    (hmutex : mutexFree s i item) (htimedOut : item.timedOut = false) :
    item.requester = .waiting := by
  obtain ⟨-, -, ⟨-, hreq | hreq⟩ | ⟨habsurd, -⟩⟩ := (ht.of_available hwork hitem).2.1
  · exact hreq
  · have := hmutex.2
    simp [hreq, Requester.holds] at this
  · simp [htimedOut] at habsurd

/-- A step that loses no item keeps the owners. -/
theorem Owned.step (h : Owned s) (ht : Traced s lives) (hcond : Releases s op)
    (hstep : Transition s op s') : Owned s' := by
  cases hstep with
  | sendRequest _ =>
    constructor
    · rw [queueOf_put]
      exact h.items.spawn ⟨by simp [newItem], by simp [newItem], fun _ _ => rfl, by simp [newItem]⟩
    · exact h.worker.spawn _
  | enqueue hitem hreq =>
    exact ⟨h.enqueue hitem hreq, h.worker.update hitem (.inr (.inr (by simp [hreq])))⟩
  | timeOut hitem hreq hmutex =>
    exact ⟨h.timeOut hcond hitem hreq, h.worker.update hitem (.inr (.inl hmutex.1))⟩
  | @timeOutQueue i item q didDelete hitem hq hreq =>
    exact ⟨h.timeOutQueue hitem hq hreq, h.worker.update hitem (.inr (.inr (by simp [hreq])))⟩
  | @wake i item hitem hreq hmutex =>
    constructor
    · apply h.items.update hitem
      exact (h.items i item hitem).goOn (by rw [hreq]; rfl) rfl (by simp)
    · exact h.worker.update hitem (.inr (.inl hmutex.1))
  | leave hitem hlive hreq =>
    exact ⟨h.leave hitem hlive, h.worker.update hitem (.inr (.inr (by simp [hreq])))⟩
  -- these steps leave the items alone, and the worker has none
  | beginCollect _ | endCollect _ | finishWork _ _ | transmitted _ =>
    exact ⟨h.items, waited_of_not_holds _ fun _ => rfl⟩
  | collect hworker hq hmem => exact ⟨h.collect hq, waited_of_not_holds _ fun _ => rfl⟩
  | @takeTimedOut i rest item hworker hwork hitem hlive hmutex htimedOut =>
    have hreturned : item.requester.hasReturned = true := by
      apply hcond i _ item hitem htimedOut
      rw [hwork]
      rfl
    refine ⟨h.takeTimedOut hwork hitem hreturned, ?_⟩
    rw [hworker]
    exact waited_of_not_holds _ fun _ => rfl
  | @takeItem i rest item hworker hwork hitem hlive hmutex htimedOut =>
    have hwaiting := ht.waiting_of_available hwork hitem hmutex htimedOut
    refine ⟨h.takeItem hwork hitem htimedOut hwaiting, fun j hj => ?_⟩
    obtain rfl : i = j := by simpa [Worker.holds] using hj
    exact ⟨item, hitem, hwaiting⟩
  | markBusy hworker _ _ =>
    constructor
    · rw [queueOf_addBusy]
      exact h.items
    · have hwaited := h.worker
      rw [hworker] at hwaited
      exact hwaited
  | notTransmitted hworker | abortRequest hworker _ =>
    have hwaited := h.worker
    rw [hworker] at hwaited
    exact ⟨h.items, hwaited⟩
  | clearBusy _ hitem _ =>
    constructor
    · rw [queueOf_addBusy]
      exact h.items.update hitem { h.items _ _ hitem with }
    · exact waited_of_not_holds _ fun _ => rfl
  | receiveOther _ | receive _ => exact ⟨h.items, h.worker⟩
  | releaseQueue _ _ _ _ =>
    refine ⟨?_, h.worker⟩
    rw [queueOf_addBusy]
    exact h.items
  | deliver _ _ hitem _ _ =>
    exact ⟨h.items.update hitem { h.items _ _ hitem with }, h.worker.update hitem (.inl rfl)⟩

/-! ## Destroyed exactly once -/

theorem Traced.eq_done (ht : Traced s lives) (hitem : s.items[i]? = some item)
    (hfreed : item.freed = true) : lives[i]? = some ⟨item.eui64, .done⟩ := by
  obtain ⟨p, hlife, hok⟩ := ht.items.ok i item hitem
  obtain rfl : p = .done := by cases p <;> simp_all [ItemOk, Alive, Fresh]
  exact hlife

/-- The items that are not freed are those that somebody has. -/
theorem Owned.pending_iff (h : Owned s) (ht : Traced s lives) (hitem : s.items[i]? = some item) :
    Pending s i item ↔ item.freed = false := by
  have hold := h.items i item hitem
  constructor
  · intro hpending
    by_contra hfreed
    rw [Bool.not_eq_false] at hfreed
    have hlife := ht.eq_done hitem hfreed
    have hreturned := hold.freed hfreed
    -- a freed item has ended, and no queue, map or thread has a request that has ended
    rcases hpending with hreq | hqueue | havailable | hholds | hasync | hclaimed | hdelivering
    · simp [hreturned] at hreq
    · cases hq : hashMapGet s.deviceQueues item.eui64 with
      | none => simp [queueOf, hq] at hqueue
      | some q =>
        simp only [queueOf, hq, map_some, getD_some] at hqueue
        rw [ht.queues.mem _ q hq, hlife] at hqueue
        cases hqueue
    · rw [ht.worker.popped, isAt_iff hlife] at havailable
      cases havailable
    · obtain ⟨other, hother, hwaiting⟩ := h.worker i hholds
      cases some.inj (hitem.symm.trans hother)
      rw [hwaiting] at hreturned
      cases hreturned
    · rw [ht.async.get hlife] at hasync
      cases hasync
    · obtain ⟨x, hx⟩ := mem_handlers_iff.mp hclaimed
      rw [ht.handlers.claimed, isAt_iff hlife] at hx
      cases hx
    · obtain ⟨x, hx⟩ := mem_handlers_iff.mp hdelivering
      rw [ht.handlers.delivering, isAt_iff hlife] at hx
      cases hx
  · intro hlive
    cases htimedOut : item.timedOut with
    | false => exact .inl (hold.own hlive htimedOut)
    | true => exact .inr (.inr (.inl (hold.abandoned hlive htimedOut)))

/-- A thread that is about to touch an item has it. -/
theorem pending_of_touches (hitem : s.items[i]? = some item) (htouches : touches s op = some i) :
    Pending s i item := by
  -- where a thread finds the item is one of the places of `Pending`
  cases op with
  | enqueue j | timeOut j | timeOutQueue j | wake j | leave j =>
    simp only [touches, ite_none_right_eq_some, some.injEq] at htouches
    obtain ⟨hany, rfl⟩ := htouches
    exact .inl (by simpa [hitem] using hany)
  | takeItem => exact .inr (.inr (.inl (List.mem_of_head? htouches)))
  | markBusy | xmitDone | abortRequest | clearBusy =>
    simp only [touches] at htouches
    split at htouches
    · rename_i j stage hworker
      cases htouches
      exact .inr (.inr (.inr (.inl (by simp [hworker, Worker.holds]))))
    · cases htouches
  | releaseQueue x _ | deliver x _ =>
    refine .inr (.inr (.inr (.inr (.inr ?_))))
    simp only [touches] at htouches
    split at htouches
    · rename_i j hstage
      cases htouches
      exact .inl (mem_handlers_iff.mpr ⟨x, hstage⟩)
    · rename_i j hstage
      cases htouches
      exact .inr (mem_handlers_iff.mpr ⟨x, hstage⟩)
    · cases htouches
  | _ => cases htouches

end

theorem Transition.of_releaseStep {s s' : ZhalState} {op : ZhalOp} {o : Option Nat}
    (h : releaseStep s op = some (s', o)) : Transition s op s' ∧ o = destroys s op := by
  obtain ⟨⟨t, u⟩, hstep, ⟨⟩⟩ := map_eq_some_iff.mp h
  exact ⟨.of_step hstep, rfl⟩

/-- As long as no item is left to nobody or destroyed too early, an item has been destroyed once
when its request has returned and nothing is pending for it, and never before that; no thread is
about to touch a destroyed item. -/
theorem released_once {ops : List ZhalOp} {s : ZhalState} {os : List (Option Nat)}
    (hguard : Guarded releaseStep KeepsOwner zhalInit ops)
    (hrun : run releaseStep zhalInit ops = some (s, os)) {i : Nat} {item : WorkItem}
    (hitem : s.items[i]? = some item) :
    os.count (some i) = (if Pending s i item then 0 else 1) ∧
      ∀ op, touches s op = some i → os.count (some i) = 0 := by
  obtain ⟨⟨lives, ht⟩, howned⟩ : (∃ lives, Traced s lives) ∧ Owned s := by
    apply run_invariant _ ⟨⟨[], traced_init⟩, owned_init⟩ hguard hrun
    rintro s op s' o ⟨⟨lives, ht⟩, howned⟩ hcond hstep
    have htrans := (Transition.of_releaseStep hstep).1
    exact ⟨ht.step hcond.1 htrans, howned.step ht hcond.2 htrans⟩
  have hweight : ∀ s op s' o, True → releaseStep s op = some (s', o) →
      True ∧ freedAt s' i = freedAt s i + (o == some i).toNat := by
    intro s op s' o _ hstep
    obtain ⟨htrans, rfl⟩ := Transition.of_releaseStep hstep
    exact ⟨trivial, freedAt_step htrans i⟩
  have hcount : freedAt s i = freedAt zhalInit i + os.countP (· == some i) :=
    run_countP hweight trivial hrun
  have hpending := howned.pending_iff ht hitem
  have hfreed : os.count (some i) = if Pending s i item then 0 else 1 := by
    simp only [freedAt, hitem, any_some] at hcount
    have hzero : (zhalInit.items[i]?.any (·.freed)).toNat = 0 := rfl
    rw [List.count, show os.countP (· == some i) = item.freed.toNat by omega]
    cases hlive : item.freed with
    | false => rw [if_pos (hpending.mpr hlive)]; rfl
    | true => rw [if_neg (by simp [hpending, hlive])]; rfl
  refine ⟨hfreed, fun op htouches => ?_⟩
  rw [hfreed, if_pos (pending_of_touches hitem htouches)]

/-- A request that is answered, and one that gives up while the worker has its item and leaves it to
the worker. -/
def answeredAndAbandoned : List ZhalOp :=
  [.sendRequest 7, .enqueue 0, .beginCollect, .collect 7, .endCollect, .takeItem, .markBusy,
    .xmitDone true, .receive (some 1), .releaseQueue 0 0, .deliver 0 0, .wake 0, .leave 0,
    .finishWork, .sendRequest 7, .enqueue 1, .beginCollect, .collect 7, .endCollect, .timeOut 1,
    .timeOutQueue 1, .leave 1, .takeItem]

theorem released_once_answeredAndAbandoned :
    Guarded releaseStep KeepsOwner zhalInit answeredAndAbandoned ∧
      ∃ s os, run releaseStep zhalInit answeredAndAbandoned = some (s, os) ∧
        os.count (some 0) = 1 ∧ os.count (some 1) = 1 := by
  have hguard : Guarded releaseStep KeepsOwner zhalInit answeredAndAbandoned := by decide +kernel
  have hend : ((run releaseStep zhalInit answeredAndAbandoned).bind fun r =>
      r.1.items[0]?.bind fun first => r.1.items[1]?.map fun second =>
        decide (Pending r.1 0 first ∨ Pending r.1 1 second)) = some false := by
    decide +kernel
  obtain ⟨⟨s, os⟩, hrun, hend⟩ := bind_eq_some_iff.mp hend
  obtain ⟨first, hfirst, hend⟩ := bind_eq_some_iff.mp hend
  obtain ⟨second, hsecond, hend⟩ := map_eq_some_iff.mp hend
  rw [decide_eq_false_iff_not, not_or] at hend
  refine ⟨hguard, s, os, hrun, ?_, ?_⟩
  · rw [(released_once hguard hrun hfirst).1, if_neg hend.1]
  · rw [(released_once hguard hrun hsecond).1, if_neg hend.2]

/-- The wait ends with a timeout after the response has been received. -/
def timeOutAfterResponse : List ZhalOp :=
  [.sendRequest 7, .enqueue 0, .beginCollect, .collect 7, .endCollect, .takeItem, .markBusy,
    .xmitDone true, .receive (some 1), .timeOut 0, .timeOutQueue 0, .leave 0, .releaseQueue 0 0,
    .deliver 0 0]

/-- The worker turns to the item of a requester that has given it up and not yet returned. -/
def abandonedTooLate : List ZhalOp :=
  [.sendRequest 7, .enqueue 0, .beginCollect, .collect 7, .endCollect, .timeOut 0, .timeOutQueue 0,
    .takeItem]

/-- In the first run the request has returned, nothing is pending for it, and its item has not been
destroyed.  In the second the item has been destroyed, and the requester is about to read it. -/
theorem item_lost_or_read_freed :
    ((run releaseStep zhalInit timeOutAfterResponse).bind fun r => r.1.items[0]?.map fun item =>
      (decide (Pending r.1 0 item), r.2.count (some 0))) = some (false, 0) ∧
    ((run releaseStep zhalInit abandonedTooLate).map fun r =>
      (touches r.1 (.leave 0), r.2.count (some 0))) = some (some 0, 1) := by
  constructor
  · decide +kernel
  · decide +kernel

end ZilkerSdk.Zhal
