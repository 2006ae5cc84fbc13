import ZilkerSdk.Lib.Run
import ZilkerSdk.Zhal.Lives

/-!
# Requests move from place to place

Every step of the machine moves at most one request from one place to the next, provided that two
things do not happen:

* a requester is woken though nobody has signalled it.  `zhalSendRequest` takes every end of the
  wait that is not a timeout for an answer and frees the item, which may still be in a queue or
  in `asyncRequests`.
* a response comes for a request whose transmission has failed, before the worker has taken it
  out of `asyncRequests`.  Then the worker and the handler both clear the mark, and the requester
  is woken and frees the item while the handler still has it.
-/

namespace ZilkerSdk.Zhal

open Lib Place
open Types

/-- The step is not one of the two that lose track of an item. -/
def KeepsTrack (s : ZhalState) : ZhalOp → Prop
  | .wake i => ∀ item ∈ s.items[i]?, item.signalled = true
  | .abortRequest =>
    match s.worker with
    | .processing i .aborting => hashMapGet s.asyncRequests (requestIdOf i) = some i
    | _ => True
  | _ => True

instance (s : ZhalState) (op : ZhalOp) : Decidable (KeepsTrack s op) := by
  delta KeepsTrack
  repeat' split
  all_goals infer_instance

section Steps

attribute [local simp] ItemOk Alive Fresh Place.isQueued Place.isPopped Place.unmarked Place.inAsync
  Place.claimedBy Place.deliveringBy Place.isClearing Place.busy Place.overdrawn Place.weight

variable {s s' : ZhalState} {lives : List Life} {i : Nat} {item : WorkItem} {d : UInt64} {p : Place}

/-! ## What the mutex and the requester say about the place -/

section

variable (h : Traced s lives) (hlife : lives[i]? = some ⟨d, p⟩)
include h hlife

theorem Traced.worker_of_unmarked (hp : p.unmarked = true) :
    s.worker = .processing i .registered :=
  (h.worker.unmarked i).mpr ((isAt_iff hlife).mpr hp)

/-- While nobody holds the mutex, the worker is not between registering the item and clearing
the mark. -/
theorem Traced.not_held (hmutex : mutexFree s i item) :
    p.unmarked = false ∧ p.isClearing = false := by
  have hfree := hmutex.1
  constructor
  · by_contra hp
    rw [h.worker_of_unmarked hlife (by simpa using hp)] at hfree
    simp [Worker.holds] at hfree
  · by_contra hp
    rw [(h.worker.clearing i).mpr ((isAt_iff hlife).mpr (by simpa using hp))] at hfree
    simp [Worker.holds] at hfree

end

theorem ItemOk.timingOut_iff (h : ItemOk item p) :
    item.requester = .timingOut true ↔ p = .timingOut := by
  constructor
  · intro hreq
    cases p <;> simp_all
  · rintro rfl
    exact h.2

/-! ## The steps of a requester -/

section

variable (h : Traced s lives)
include h

theorem Traced.sendRequest (hstep : Transition s (.sendRequest d) s') :
    ∃ lives', Traced s' lives' := by
  cases hstep
  exact ⟨lives ++ [⟨d, .preparing⟩], h.items.spawn d, h.queues.spawn d, h.worker.spawn d,
    h.handlers.spawn d, h.async.spawn d, h.single.spawn d⟩

theorem Traced.enqueue (hstep : Transition s (.enqueue i) s') : ∃ lives', Traced s' lives' := by
  cases hstep
  rename_i item hreq hitem
  obtain ⟨p, hlife, hok⟩ := h.items.ok i item hitem
  obtain rfl : p = .preparing := by cases p <;> simp_all
  have hmoved : ∀ q, hashMapGet s.deviceQueues item.eui64 = some q →
      QueueMoved i .preparing .queued q { q with queue := q.queue ++ [i] } := by
    intro q hq
    have hnew : i ∉ q.queue := by
      rw [h.queues.mem _ q hq, hlife]
      simp
    refine ⟨fun hnodup => ?_, fun j => ?_, ?_⟩
    · have := hnodup.concat hnew
      rwa [List.concat_eq_append] at this
    · by_cases hj : j = i <;> simp [hj]
    · simp
  exact ⟨lives.set i ⟨item.eui64, .queued⟩, h.items.move hitem hlife rfl ⟨hok.1, .inl rfl⟩,
    h.queues.move hlife hmoved, h.worker.move hlife rfl rfl rfl,
    h.handlers.move hlife (fun _ => rfl) (fun _ => rfl), h.async.move hlife rfl,
    h.single.move hlife id⟩

theorem Traced.timeOut (hstep : Transition s (.timeOut i) s') : ∃ lives', Traced s' lives' := by
  cases hstep
  rename_i item hreq hitem hmutex
  obtain ⟨p, hlife, hok⟩ := h.items.ok i item hitem
  obtain ⟨hmarked, hclearing⟩ := h.not_held hlife hmutex
  rw [h.async.get hlife]
  cases hasync : p.inAsync with
  | true =>
    obtain rfl : p = .flying := by cases p <;> simp_all
    refine ⟨lives.set i ⟨item.eui64, .timingOut⟩, h.items.move hitem hlife rfl ⟨hok.1, rfl⟩,
      h.queues.still hlife rfl rfl rfl, h.worker.move hlife rfl rfl rfl,
      h.handlers.move hlife (fun _ => rfl) (fun _ => rfl), h.async.delete hlife rfl,
      h.single.move hlife (fun _ => rfl)⟩
  | false =>
    have hok' : ItemOk { item with requester := .timingOut false } p := by cases p <;> simp_all
    refine ⟨lives, { h with items := h.items.change hitem hlife rfl hok', async := ?_ }⟩
    have := h.async.delete hlife hasync
    rwa [set_self hlife] at this

end

/-- Where a request is when its requester has given it up. -/
def Place.abandoned : Place → Place
  | .queued | .timingOut => .done
  | p => p

variable {q : DeviceQueue} {didDelete : Bool} {remaining : List UInt64} {rest : List Nat}
  {found x : Nat} {handler : Handler}

theorem queueMoved_abandoned (hnodup : q.queue.Nodup)
    (hweight : p.abandoned.weight - p.weight = if didDelete then -1 else 0) :
    QueueMoved i p p.abandoned q (abandonedQueue i didDelete q) := by
  refine ⟨fun _ => hnodup.erase i, fun j => ?_, ?_⟩
  · have hnever : p.abandoned.isQueued = false := by cases p <;> rfl
    rw [abandonedQueue, hnodup.mem_erase_iff, hnever]
    by_cases hj : j = i <;> simp [hj]
  · rw [hweight, abandonedQueue]
    cases didDelete with
    | false => simp
    | true => exact Int.sub_eq_add_neg

section

variable (h : Traced s lives)
include h

theorem Traced.timeOutQueue (hstep : Transition s (.timeOutQueue i) s') :
    ∃ lives', Traced s' lives' := by
  cases hstep
  rename_i item q didDelete hq hreq hitem
  obtain ⟨p, hlife, hok⟩ := h.items.ok i item hitem
  have hmem : i ∈ q.queue ↔ p = .queued := by
    rw [h.queues.mem _ q hq, hlife]
    simp
  have hok' : ItemOk (abandonedItem item didDelete (decide (i ∈ q.queue))) p.abandoned := by
    cases p <;> simp_all [abandonedItem, abandoned]
  have hweight : p.abandoned.weight - p.weight = if didDelete then -1 else 0 := by
    cases p <;> cases didDelete <;> simp_all [abandoned]
  refine ⟨lives.set i ⟨item.eui64, p.abandoned⟩, h.items.move hitem hlife rfl hok',
    h.queues.move hlife fun q hq => queueMoved_abandoned (h.queues.nodup _ q hq) hweight,
    h.worker.move hlife ?_ ?_ ?_, h.handlers.move hlife ?_ ?_, h.async.move hlife ?_,
    h.single.move hlife ?_⟩
  case refine_7 =>
    intro hactive
    cases p <;> first | rfl | cases hactive
  all_goals cases p <;> first | rfl | exact fun _ => rfl

/-! ## The steps of the worker -/

theorem Traced.beginCollect (hstep : Transition s .beginCollect s') :
    ∃ lives', Traced s' lives' := by
  cases hstep
  rename_i hworker
  have hempty := h.worker.idle hworker
  refine ⟨lives, { h with
    worker := ⟨h.worker.nodup, h.worker.popped, (nomatch ·), ?_, ?_, ?_, ?_⟩ }⟩
  · rintro _ ⟨⟩
    exact s.deviceQueues.nodupKeys
  · -- nothing at all has been taken
    intro r _ life hmem hplace
    obtain ⟨j, hj⟩ := List.getElem?_of_mem hmem
    have hpopped := (h.worker.popped j).mpr ⟨life, hj, by simp [hplace]⟩
    rw [hempty] at hpopped
    cases hpopped
  · intro j
    simp [← h.worker.unmarked j, hworker]
  · intro j
    simp [← h.worker.clearing j, hworker]

theorem Traced.inactive (hworker : s.worker = .collecting remaining) (hmem : d ∈ remaining)
    (hq : hashMapGet s.deviceQueues d = some q) (hbusy : q.isBusy = 0) :
    tally d active lives = 0 := by
  have hmarked : ∀ life ∈ lives, life.place.unmarked = false := by
    intro life hlife
    by_contra hp
    obtain ⟨j, hj⟩ := List.getElem?_of_mem hlife
    have := h.worker_of_unmarked (d := life.device) (p := life.place) hj (by simpa using hp)
    rw [hworker] at this
    cases this
  have hover : tally d overdrawn lives = 0 := by
    rw [tally, List.countP_eq_zero]
    intro life hlife
    have := hmarked life hlife
    cases hp : life.place <;> simp_all
  have hnone : tally d busy lives = 0 := by
    have := h.queues.busy d q hq
    omega
  -- the busy places are all that is left of the active ones
  rw [tally, List.countP_eq_zero] at hnone ⊢
  intro life hlife
  have hremaining := h.worker.remaining remaining hworker life hlife
  have hm := hmarked life hlife
  have hn := hnone life hlife
  intro hd
  cases hp : life.place <;>
    simp_all [active]

theorem Traced.collect (hstep : Transition s (.collect d) s') : ∃ lives', Traced s' lives' := by
  cases hstep
  rename_i remaining q hworker hq hmem
  have htraced := h.worker
  rw [hworker] at htraced
  rcases popAvailable_cases q with ⟨i, rest, hbusy, hqueue, hpop⟩ | hpop
  -- the queue is not busy, and its first request becomes available work
  · have hlife : lives[i]? = some ⟨d, .queued⟩ := by
      rw [← h.queues.mem d q hq, hqueue]
      exact List.mem_cons_self
    obtain ⟨item, hitem, hdevice, hok⟩ := h.items.of_life hlife
    have hmoved : ∀ q', hashMapGet s.deviceQueues d = some q' →
        QueueMoved i .queued .popped q' (popAvailable q').1 := by
      intro q' hq'
      cases hq.symm.trans hq'
      have hnodup := h.queues.nodup d q hq
      rw [hqueue, List.nodup_cons] at hnodup
      rw [hpop]
      refine ⟨fun _ => hnodup.2, fun j => ?_, ?_⟩
      · by_cases hj : j = i <;> simp [hj, hqueue, hnodup.1]
      · simp
    have halive : ItemOk item .popped := by
      obtain ⟨⟨hlive, hsignalled, htimedOut⟩, hreq⟩ := hok
      exact ⟨hlive, hsignalled, .inl ⟨htimedOut, hreq⟩⟩
    rw [hpop]
    subst hdevice
    exact ⟨lives.set i ⟨item.eui64, .popped⟩, h.items.moveLife hitem hlife halive,
      h.queues.move hlife hmoved, htraced.pop hlife,
      h.handlers.move hlife (fun _ => rfl) (fun _ => rfl), h.async.move hlife rfl,
      h.single.take hlife (h.inactive hworker hmem hq hbusy)⟩
  -- nothing is taken from this queue
  · rw [hashMapModify_of_eq hq (by rw [hpop]), hpop, List.append_nil]
    exact ⟨lives, { h with worker := htraced.visit d }⟩

theorem Traced.of_available (hwork : s.availableWork = i :: rest)
    (hitem : s.items[i]? = some item) :
    lives[i]? = some ⟨item.eui64, .popped⟩ ∧ Alive item ∧ rest.Nodup ∧
      ∀ j, j ∈ rest ↔ if j = i then False else j ∈ s.availableWork := by
  obtain ⟨p, hlife, hok⟩ := h.items.ok i item hitem
  have hpopped : IsAt isPopped lives i := by
    rw [← h.worker.popped, hwork]
    exact List.mem_cons_self
  obtain rfl : p = .popped := by
    rw [isAt_iff hlife] at hpopped
    cases p <;> simp_all
  have hnodup := h.worker.nodup
  rw [hwork, List.nodup_cons] at hnodup
  refine ⟨hlife, hok, hnodup.2, fun j => ?_⟩
  by_cases hj : j = i <;> simp [hj, hwork, hnodup.1]

theorem Traced.takeTimedOut (hworker : s.worker = .working) (hwork : s.availableWork = i :: rest)
    (hitem : s.items[i]? = some item) (htimedOut : item.timedOut = true) :
    Traced { s with
      availableWork := rest
      items := s.items.set i { item with freed := true, heir := s.items.length } }
      (lives.set i ⟨item.eui64, .done⟩) := by
  obtain ⟨hlife, halive, hnodup, hrest⟩ := h.of_available hwork hitem
  have hok' : ItemOk { item with freed := true, heir := s.items.length } .done := by
    simp only [Alive, htimedOut] at halive
    rcases halive.2.2 with ⟨habsurd, -⟩ | ⟨-, hreq | hreq⟩
    · cases habsurd
    · simp [hreq]
    · simp [hreq]
  refine ⟨h.items.move hitem hlife rfl hok', h.queues.still hlife rfl rfl rfl,
    h.worker.act hlife (.inl hworker) hnodup ?_ ?_ ?_,
    h.handlers.move hlife (fun _ => rfl) (fun _ => rfl), h.async.move hlife rfl,
    h.single.finish hlife⟩
  · simpa using hrest
  · simp [hworker]
  · simp [hworker]

theorem Traced.takeItem (hworker : s.worker = .working) (hwork : s.availableWork = i :: rest)
    (hitem : s.items[i]? = some item) (hmutex : mutexFree s i item)
    (htimedOut : item.timedOut = false) :
    Traced { s with
      availableWork := rest
      asyncRequests := (hashMapPut s.asyncRequests (requestIdOf i) i).1
      worker := .processing i .registered } (lives.set i ⟨item.eui64, .registered⟩) := by
  obtain ⟨hlife, halive, hnodup, hrest⟩ := h.of_available hwork hitem
  have hok' : ItemOk item .registered := by
    obtain ⟨hlive, hsignalled, ⟨-, hreq | hreq⟩ | ⟨habsurd, -⟩⟩ := halive
    · exact ⟨⟨hlive, hsignalled, htimedOut⟩, hreq⟩
    · -- a requester that is timing out holds the mutex
      have := hmutex.2
      simp [hreq, Requester.holds] at this
    · rw [htimedOut] at habsurd
      cases habsurd
  refine ⟨h.items.moveLife hitem hlife hok', h.queues.still hlife rfl rfl rfl,
    h.worker.act hlife (.inr ⟨i, _, rfl⟩) hnodup ?_ ?_ ?_,
    h.handlers.move hlife (fun _ => rfl) (fun _ => rfl), h.async.put hlife rfl rfl,
    h.single.move hlife (fun _ => rfl)⟩
  · simpa using hrest
  · intro j
    simp [hworker, eq_comm]
  · intro j
    simp [hworker]

end

/-- Where a request is when its queue has been marked. -/
def Place.mark : Place → Place
  | .registered => .flying
  | .early h => .claimed h
  | .earlyDone h => .delivering h
  | p => p

section

variable (h : Traced s lives)
include h

theorem Traced.markBusy (hstep : Transition s .markBusy s') : ∃ lives', Traced s' lives' := by
  cases hstep
  rename_i i item hworker hitem hlive
  clear hlive
  obtain ⟨p, hlife, hok⟩ := h.items.ok i item hitem
  -- the response may be there already, so the request may be in several places
  have hp : p.unmarked = true := (isAt_iff hlife).mp ((h.worker.unmarked i).mp hworker)
  have hnot : i ∉ s.availableWork := by
    rw [h.worker.popped, isAt_iff hlife]
    cases p <;> simp_all
  have hok' : ItemOk item p.mark := by cases p <;> simp_all [mark]
  have hweight : p.mark.weight - p.weight = 1 := by cases p <;> simp_all [mark]
  have hqueues : QueuesTraced (addBusy s.deviceQueues item.eui64 1)
      (lives.set i ⟨item.eui64, p.mark⟩) := by
    apply h.queues.bump hlife _ _ hweight <;> (cases p <;> first | rfl | cases hp)
  refine ⟨lives.set i ⟨item.eui64, p.mark⟩, h.items.moveLife hitem hlife hok', hqueues,
    h.worker.act hlife (.inr ⟨i, _, rfl⟩) h.worker.nodup ?_ ?_ ?_, h.handlers.move hlife ?_ ?_,
    h.async.move hlife ?_, h.single.move hlife ?_⟩
  · intro j
    by_cases hj : j = i
    · cases p <;> simp_all [mark]
    · simp [hj]
  · intro j
    cases p <;> simp_all [-ItemOk, mark, eq_comm]
  · intro j
    cases p <;> simp_all [mark]
  all_goals cases p <;> first | rfl | exact fun _ => rfl | cases hp

theorem Traced.xmitDone {ok : Bool} (hstep : Transition s (.xmitDone ok) s') :
    ∃ lives', Traced s' lives' := by
  cases hstep <;>
  · rename_i i hworker
    exact ⟨lives, { h with worker := h.worker.switch (by simp [hworker]) rfl }⟩

theorem Traced.abortRequest (hstep : Transition s .abortRequest s')
    (hcond : KeepsTrack s .abortRequest) : ∃ lives', Traced s' lives' := by
  cases hstep
  rename_i i item hworker hitem
  have hpending : hashMapGet s.asyncRequests (requestIdOf i) = some i := by
    simpa only [KeepsTrack, hworker] using hcond
  obtain ⟨p, hlife, hok⟩ := h.items.ok i item hitem
  have hmarked : p.unmarked = false := by
    by_contra hp
    have := h.worker_of_unmarked hlife (by simpa using hp)
    simp [hworker] at this
  -- it is still in `asyncRequests`, so nobody has answered it or given up
  obtain rfl : p = .flying := by
    have := (isAt_iff hlife).mp ((h.async _ i).mp hpending).2
    cases p <;> simp_all
  have hnot : i ∉ s.availableWork := by
    rw [h.worker.popped, isAt_iff hlife]
    simp
  refine ⟨lives.set i ⟨item.eui64, .clearing⟩, h.items.moveLife hitem hlife hok,
    h.queues.still hlife rfl rfl rfl, h.worker.act hlife (.inr ⟨i, _, rfl⟩) h.worker.nodup ?_ ?_ ?_,
    h.handlers.move hlife (fun _ => rfl) (fun _ => rfl), h.async.delete hlife rfl,
    h.single.move hlife (fun _ => rfl)⟩
  · intro j
    by_cases hj : j = i <;> simp [hj, hnot]
  · intro j
    simp [hworker]
  · intro j
    simp [hworker, eq_comm]

theorem Traced.clearBusy (hstep : Transition s .clearBusy s') : ∃ lives', Traced s' lives' := by
  cases hstep
  rename_i i item hworker hitem hlive
  obtain ⟨p, hlife, hok⟩ := h.items.ok i item hitem
  obtain rfl : p = .clearing := by
    have := (isAt_iff hlife).mp ((h.worker.clearing i).mp hworker)
    cases p <;> simp_all
  have hnot : i ∉ s.availableWork := by
    rw [h.worker.popped, isAt_iff hlife]
    simp
  have hok' : ItemOk { item with signalled := true } .done := by simp [hok.2]
  refine ⟨lives.set i ⟨item.eui64, .done⟩, h.items.move hitem hlife rfl hok',
    h.queues.bump hlife rfl rfl rfl, h.worker.act hlife (.inl rfl) h.worker.nodup ?_ ?_ ?_,
    h.handlers.move hlife (fun _ => rfl) (fun _ => rfl), h.async.move hlife rfl,
    h.single.finish hlife⟩
  · intro j
    by_cases hj : j = i <;> simp [hj, hnot]
  · intro j
    simp [hworker]
  · intro j
    simp [hworker, eq_comm]

end

/-! ## The steps of a response -/

/-- Where a request is when a handler has taken it out of `asyncRequests`. -/
def Place.claim (h : Nat) : Place → Place
  | .registered => .early h
  | _ => .claimed h

theorem Traced.receive {k : Nat} (h : Traced s lives)
    (hfound : hashMapGet s.asyncRequests k = some i) (requestId : Option Int) :
    ∃ lives', Traced { s with
      asyncRequests := (hashMapDelete s.asyncRequests k).1
      handlers := s.handlers ++ [⟨requestId, .claimed i⟩]
      answered := s.answered ++ [i] } lives' := by
  obtain ⟨rfl, ⟨d, p⟩, hlife, hp⟩ := (h.async k i).mp hfound
  obtain ⟨item, hitem, rfl, hok⟩ := h.items.of_life hlife
  have hok' : ItemOk item (p.claim s.handlers.length) := by cases p <;> simp_all [claim]
  have hnone : stageOf s.handlers s.handlers.length = none := by simp [stageOf]
  refine ⟨lives.set i ⟨item.eui64, p.claim s.handlers.length⟩, h.items.moveLife hitem hlife hok',
    h.queues.still hlife ?_ ?_ ?_, h.worker.move hlife ?_ ?_ ?_,
    h.handlers.act hlife (stageOf_append _ _) ?_ ?_ ?_ ?_, h.async.delete hlife ?_,
    h.single.move hlife ?_⟩
  case refine_7 =>
    intro j _
    simp [hnone]
  case refine_8 =>
    intro j
    cases p <;> simp_all [-ItemOk, claim, eq_comm]
  case refine_9 =>
    intro j
    cases p <;> simp_all [claim]
  case refine_10 =>
    intro y hy
    cases p <;> simp_all [-ItemOk, claim, eq_comm]
  all_goals cases p <;> first | rfl | exact fun _ => rfl | cases hp

/-- Where a request is when its handler has cleared the mark. -/
def Place.release : Place → Place
  | .early h => .earlyDone h
  | .claimed h => .delivering h
  | p => p

theorem Traced.releaseQueue (h : Traced s lives) (hstep : Transition s (.releaseQueue x found) s') :
    ∃ lives', Traced s' lives' := by
  cases hstep
  rename_i i handler item hstage hhandler hitem hleads
  have hof : stageOf s.handlers x = some (.claimed i) := by simp [stageOf, hhandler, hstage]
  obtain ⟨⟨d, p⟩, hlife, hp⟩ := (h.handlers.claimed x i).mp hof
  obtain ⟨own, hown, rfl, hok⟩ := h.items.of_life hlife
  have hplace : p = .early x ∨ p = .claimed x := by cases p <;> simp_all
  -- the item is still there, so the pointer leads to it
  have hlive : own.freed = false := by
    rcases hplace with rfl | rfl
    · exact hok.1.1
    · exact hok.1
  obtain rfl := leadsTo_of_live hown hlive hleads
  obtain rfl : own = item := Option.some.inj (hown.symm.trans hitem)
  have hok' : ItemOk own p.release := by rcases hplace with rfl | rfl <;> exact hok
  refine ⟨lives.set found ⟨own.eui64, p.release⟩, h.items.moveLife hitem hlife hok',
    h.queues.bump hlife ?_ ?_ ?_, h.worker.move hlife ?_ ?_ ?_,
    h.handlers.act hlife (stageOf_set hhandler _) ?_ ?_ ?_ ?_, h.async.move hlife ?_,
    h.single.move hlife ?_⟩
  case refine_7 =>
    intro j hj
    simp [hof, Ne.symm hj]
  case refine_8 =>
    intro j
    rcases hplace with rfl | rfl <;> simp [release]
  case refine_9 =>
    intro j
    rcases hplace with rfl | rfl <;> simp [release, eq_comm]
  case refine_10 =>
    intro y hy
    rcases hplace with rfl | rfl <;>
      simp [release, Ne.symm hy]
  all_goals rcases hplace with rfl | rfl <;> first | rfl | exact fun _ => rfl

theorem Traced.deliver (h : Traced s lives) (hhandler : s.handlers[x]? = some handler)
    (hstage : handler.stage = .delivering i) (hitem : s.items[found]? = some item)
    (hleads : leadsTo s i found) (hmutex : mutexFree s found item) :
    found = i ∧ Traced { s with
      items := s.items.set found { item with response := some x, signalled := true }
      handlers := s.handlers.set x { handler with stage := .finished } }
      (lives.set i ⟨item.eui64, .done⟩) := by
  have hof : stageOf s.handlers x = some (.delivering i) := by simp [stageOf, hhandler, hstage]
  obtain ⟨⟨d, p⟩, hlife, hp⟩ := (h.handlers.delivering x i).mp hof
  obtain ⟨own, hown, rfl, hok⟩ := h.items.of_life hlife
  have hlive : own.freed = false := by cases p <;> simp_all
  obtain rfl := leadsTo_of_live hown hlive hleads
  obtain rfl : own = item := Option.some.inj (hown.symm.trans hitem)
  -- the worker does not hold the mutex, so the queue has been marked
  obtain rfl : p = .delivering x := by
    have := (h.not_held hlife hmutex).1
    cases p <;> simp_all
  have hok' : ItemOk { own with response := some x, signalled := true } .done := by
    rcases hok.2.2 with ⟨-, hreq | hreq⟩ | ⟨-, hreq | hreq⟩ <;> simp_all
  refine ⟨rfl, h.items.move hitem hlife rfl hok', h.queues.still hlife rfl rfl rfl,
    h.worker.move hlife rfl rfl rfl, h.handlers.act hlife (stageOf_set hhandler _) ?_ ?_ ?_ ?_,
    h.async.move hlife rfl, h.single.finish hlife⟩
  · intro j hj
    simp [hof, Ne.symm hj]
  · simp
  · simp
  · intro y hy
    simp [Ne.symm hy]

end Steps

/-! ## Any step -/

/-- A step that loses track of no item keeps the lives of the requests. -/
theorem Traced.step {s s' : ZhalState} {op : ZhalOp} {lives : List Life} (h : Traced s lives)
    (hcond : KeepsTrack s op) (hstep : Transition s op s') : ∃ lives', Traced s' lives' := by
  cases op with
  | sendRequest _ => exact h.sendRequest hstep
  | enqueue _ => exact h.enqueue hstep
  | timeOut _ => exact h.timeOut hstep
  | timeOutQueue _ => exact h.timeOutQueue hstep
  | wake i =>
    cases hstep
    rename_i item hreq hitem _
    obtain ⟨p, hlife, hok⟩ := h.items.ok i item hitem
    have hsignalled : item.signalled = true := hcond _ hitem
    -- a requester is woken by a signal, so its request has ended
    obtain rfl : p = .done := by cases p <;> simp_all [ItemOk, Alive, Fresh]
    have hok' : ItemOk { item with requester := .leaving item.response } .done := by simp [ItemOk]
    exact ⟨lives, { h with items := h.items.change hitem hlife rfl hok' }⟩
  | leave i =>
    cases hstep
    rename_i item result hlive hreq hitem
    obtain ⟨p, hlife, hok⟩ := h.items.ok i item hitem
    refine ⟨lives, { h with items := h.items.change hitem hlife rfl ?_ }⟩
    cases p <;> simp_all [ItemOk, Alive, Fresh]
  | beginCollect => exact h.beginCollect hstep
  | collect _ => exact h.collect hstep
  | endCollect =>
    cases hstep
    rename_i hworker
    exact ⟨lives, { h with worker := h.worker.switch (by simp [hworker]) rfl }⟩
  | takeItem =>
    cases hstep with
    | takeTimedOut hworker hwork hitem _ _ htimedOut =>
      exact ⟨_, h.takeTimedOut hworker hwork hitem htimedOut⟩
    | takeItem hworker hwork hitem _ hmutex htimedOut =>
      exact ⟨_, h.takeItem hworker hwork hitem hmutex htimedOut⟩
  | markBusy => exact h.markBusy hstep
  | xmitDone _ => exact h.xmitDone hstep
  | abortRequest => exact h.abortRequest hstep hcond
  | clearBusy => exact h.clearBusy hstep
  | finishWork =>
    cases hstep
    rename_i hworker hwork
    refine ⟨lives, { h with worker := ⟨h.worker.nodup, h.worker.popped, fun _ => hwork,
      by rintro _ ⟨⟩, by rintro _ ⟨⟩, ?_, ?_⟩ }⟩
    · intro j
      simp [← h.worker.unmarked j, hworker]
    · intro j
      simp [← h.worker.clearing j, hworker]
  | receive requestId =>
    cases hstep with
    | receiveOther _ =>
      exact ⟨lives, { h with handlers := h.handlers.receiveOther _ }⟩
    | receive hfound => exact h.receive hfound _
  | releaseQueue _ _ => exact h.releaseQueue hstep
  | deliver _ _ =>
    cases hstep with
    | deliver hhandler hstage hitem hleads hmutex =>
      exact ⟨_, (h.deliver hhandler hstage hitem hleads hmutex).2⟩

end ZilkerSdk.Zhal
