import ZilkerSdk.Lib.Lines
import ZilkerSdk.Zhal.Moves

/-!
# Responses reach the requests they are for

A response names the request it is for by its number, and `handleIpcResponse` finds the item by
that number.  This module shows that in every run in which nobody loses track of an item, and in
which the numbers stay below the largest `int`, a requester gets its own response or none, that
the requests to one device are transmitted in the order in which they were queued, and that none
is transmitted before the earlier ones have been answered or given up.
-/

namespace ZilkerSdk.Zhal

open Lib List
open Types

/-- The number of the next request stays below the largest `int`. -/
def Numbered (s : ZhalState) : ZhalOp → Prop
  | .sendRequest _ => requestIdOf s.items.length < 2 ^ 31 - 1
  | _ => True

instance (s : ZhalState) (op : ZhalOp) : Decidable (Numbered s op) := by
  delta Numbered
  split <;> infer_instance

def Faithful (s : ZhalState) (op : ZhalOp) : Prop := KeepsTrack s op ∧ Numbered s op

instance (s : ZhalState) (op : ZhalOp) : Decidable (Faithful s op) :=
  inferInstanceAs (Decidable (_ ∧ _))

/-! ## Who has which response -/

/-- The response carries the number of the request. -/
def AnswerTo (handlers : List Handler) (h i : Nat) : Prop :=
  handlers[h]?.map (·.requestId) = some (some (requestIdOf i : Int))

variable {handlers : List Handler} {x i : Nat}

theorem AnswerTo.append (ha : AnswerTo handlers x i) (handler : Handler) :
    AnswerTo (handlers ++ [handler]) x i := by
  obtain ⟨old, hold, hid⟩ := Option.map_eq_some_iff.mp ha
  have hlt := (List.getElem?_eq_some_iff.mp hold).1
  simp [AnswerTo, getElem?_append_left hlt, hold, hid]

theorem AnswerTo.set {y : Nat} {handler : Handler} (ha : AnswerTo handlers x i)
    (hhandler : handlers[y]? = some handler) (stage : HandlerStage) :
    AnswerTo (handlers.set y { handler with stage := stage }) x i := by
  unfold AnswerTo at ha ⊢
  rw [getElem?_update hhandler]
  split
  · rename_i hx
    simpa [hx, hhandler] using ha
  · exact ha

/-- The response is in the item, or its requester has read it from there. -/
def WorkItem.Has (item : WorkItem) (h : Nat) : Prop :=
  item.response = some h ∨ item.requester = .leaving (some h) ∨ item.requester = .returned (some h)

structure Matched (items : List WorkItem) (handlers : List Handler) : Prop where
  bounded : items.length < 2 ^ 31 - 1
  claims : ∀ h i, stageOf handlers h = some (.claimed i) ∨
    stageOf handlers h = some (.delivering i) → AnswerTo handlers h i
  results : ∀ (i : Nat) (item : WorkItem) (h : Nat), items[i]? = some item → item.Has h →
    AnswerTo handlers h i

theorem Matched.change {items : List WorkItem} {item item' : WorkItem} (h : Matched items handlers)
    (hitem : items[i]? = some item) (hhas : ∀ x, item'.Has x → item.Has x) :
    Matched (items.set i item') handlers := by
  refine ⟨by simpa using h.bounded, h.claims, fun j other x hj hx => ?_⟩
  rw [getElem?_update hitem] at hj
  split at hj
  · cases hj
    exact h.results j item x (‹j = i› ▸ hitem) (hhas x hx)
  · exact h.results j other x hj hx

section

variable {s s' : ZhalState} {op : ZhalOp} {lives : List Life}

theorem Matched.step (h : Matched s.items s.handlers) (ht : Traced s lives) (hcond : Numbered s op)
    (hstep : Transition s op s') : Matched s'.items s'.handlers := by
  cases hstep with
  | sendRequest _ =>
    refine ⟨by simpa [Numbered, requestIdOf] using hcond, h.claims, fun j other x hj hx => ?_⟩
    rw [getElem?_spawn] at hj
    split at hj
    · cases hj
      simp [WorkItem.Has, newItem] at hx
    · exact h.results j other x hj hx
  | enqueue hitem hreq | timeOut hitem hreq | wake hitem hreq | leave hitem _ hreq =>
    exact h.change hitem (by simp [WorkItem.Has, hreq])
  | timeOutQueue hitem _ hreq => exact h.change hitem (by simp [WorkItem.Has, abandonedItem, hreq])
  | takeTimedOut _ _ hitem | clearBusy _ hitem => exact h.change hitem (by simp [WorkItem.Has])
  | receiveOther _ =>
    refine ⟨h.bounded, fun x i hx => ?_, fun i item x hi hx => (h.results i item x hi hx).append _⟩
    rw [stageOf_append] at hx
    split at hx
    · simp at hx
    · exact (h.claims x i hx).append _
  | @receive n i hfound =>
    refine ⟨h.bounded, fun x j hx => ?_, fun i item x hi hx => (h.results i item x hi hx).append _⟩
    rw [stageOf_append] at hx
    split at hx
    · obtain rfl : i = j := by simpa using hx
      -- the item was found under its own number
      obtain ⟨hid, hat⟩ := (ht.async _ i).mp hfound
      obtain ⟨life, hlife, -⟩ := hat
      have hlt := (List.getElem?_eq_some_iff.mp hlife).1
      have hbound := h.bounded
      rw [ht.items.length] at hlt
      have hn : n = requestIdOf i := by
        simp only [responseKey, valueint, requestIdOf] at hid ⊢
        omega
      simp [AnswerTo, ‹x = _›, hn]
    · exact (h.claims x j hx).append _
  | @releaseQueue x _ i handler _ hhandler hstage =>
    refine ⟨h.bounded, fun y j hy => ?_,
      fun i item y hi hy => (h.results i item y hi hy).set hhandler _⟩
    rw [stageOf_set hhandler] at hy
    split at hy
    · obtain rfl : i = j := by simpa using hy
      rename_i hyx
      have := h.claims x i (.inl (by simp [stageOf, hhandler, hstage]))
      exact (hyx ▸ this).set hhandler _
    · exact (h.claims y j hy).set hhandler _
  | @deliver x found i handler item hhandler hstage hitem hleads hmutex =>
    obtain ⟨rfl, -⟩ := ht.deliver hhandler hstage hitem hleads hmutex
    refine ⟨by simpa using h.bounded, fun y j hy => ?_, fun j other y hj hy => ?_⟩
    · rw [stageOf_set hhandler] at hy
      split at hy
      · simp at hy
      · exact (h.claims y j hy).set hhandler _
    · apply AnswerTo.set _ hhandler
      rw [getElem?_update hitem] at hj
      split at hj
      · cases hj
        rename_i hjf
        rw [hjf]
        rcases hy with hy | hy | hy
        · obtain rfl : x = y := Option.some.inj hy
          exact h.claims x found (.inr (by simp [stageOf, hhandler, hstage]))
        · exact h.results found item y hitem (.inr (.inl hy))
        · exact h.results found item y hitem (.inr (.inr hy))
      · exact h.results j other y hj hy
  | _ => exact h

end

/-! ## What has become of a request -/

/-- The requester has seen the timeout. -/
def GaveUp (item : WorkItem) : Prop :=
  item.timedOut = true ∨ ∃ didDelete, item.requester = .timingOut didDelete

def ItemRecorded (queued expired : List Nat) (i : Nat) (item : WorkItem) : Prop :=
  (item.requester = .preparing → i ∉ queued) ∧ (GaveUp item → i ∈ expired)

structure ItemsRecorded (items : List WorkItem) (queued expired : List Nat) : Prop where
  bounded : ∀ i ∈ queued, i < items.length
  each : EachAt (ItemRecorded queued expired) items

section

variable {items : List WorkItem} {queued expired : List Nat} {i : Nat} {item item' : WorkItem}

section

variable (h : ItemsRecorded items queued expired)
include h

theorem ItemsRecorded.change (hitem : items[i]? = some item)
    (hprepared : item'.requester = .preparing → item.requester = .preparing)
    (hgaveUp : GaveUp item' → GaveUp item) : ItemsRecorded (items.set i item') queued expired where
  bounded j hj := by simpa using h.bounded j hj
  each := by
    obtain ⟨hp, hg⟩ := h.each i item hitem
    exact h.each.update hitem ⟨hp ∘ hprepared, hg ∘ hgaveUp⟩

theorem ItemsRecorded.spawn (d : UInt64) : ItemsRecorded (items ++ [newItem d]) queued expired where
  bounded j hj := by
    have := h.bounded j hj
    simp
    omega
  each := by
    refine h.each.spawn ⟨fun _ hmem => ?_, fun hg => ?_⟩
    · exact absurd (h.bounded _ hmem) (Nat.lt_irrefl _)
    · simp [GaveUp, newItem] at hg

theorem ItemsRecorded.enqueue (hitem : items[i]? = some item) :
    ItemsRecorded (items.set i { item with requester := .waiting }) (queued ++ [i]) expired where
  bounded j hj := by
    rw [length_set]
    rcases mem_append.mp hj with hj | hj
    · exact h.bounded j hj
    · obtain rfl := mem_singleton.mp hj
      exact (List.getElem?_eq_some_iff.mp hitem).1
  each := by
    intro j other hj
    rw [getElem?_update hitem] at hj
    split at hj
    · cases hj
      refine ⟨nofun, fun hg => ?_⟩
      subst ‹j = i›
      exact (h.each j item hitem).2 (hg.imp_right nofun)
    · obtain ⟨hp, hg⟩ := h.each j other hj
      refine ⟨fun hreq hmem => ?_, hg⟩
      rcases mem_append.mp hmem with hmem | hmem
      · exact hp hreq hmem
      · exact ‹¬ j = i› (mem_singleton.mp hmem)

theorem ItemsRecorded.timeOut (hitem : items[i]? = some item) (didDelete : Bool) :
    ItemsRecorded (items.set i { item with requester := .timingOut didDelete }) queued
      (expired ++ [i]) where
  bounded j hj := by simpa using h.bounded j hj
  each := by
    have hmore : EachAt (ItemRecorded queued (expired ++ [i])) items :=
      h.each.mono fun j other _ hrec =>
        ⟨hrec.1, fun hg => mem_append_left _ (hrec.2 hg)⟩
    exact hmore.update hitem ⟨nofun, fun _ => by simp⟩

end

end

/-- The request has been answered or given up. -/
def Ended (s : ZhalState) (i : Nat) : Prop := i ∈ s.answered ∨ i ∈ s.expired ∨ i ∈ s.aborted

structure Recorded (s : ZhalState) : Prop where
  items : ItemsRecorded s.items s.queued s.expired
  aborted : ∀ i, s.worker = .processing i .aborting → i ∈ s.aborted
  answered : ∀ h i, stageOf s.handlers h = some (.claimed i) ∨
    stageOf s.handlers h = some (.delivering i) → i ∈ s.answered
  transmitted : ∀ i ∈ s.transmitted,
    hashMapGet s.asyncRequests (requestIdOf i) = some i ∨ Ended s i

theorem recorded_init : Recorded zhalInit where
  items := ⟨nofun, eachAt_nil⟩
  aborted := nofun
  answered := by simp [zhalInit, stageOf]
  transmitted := nofun

section

variable {s s' : ZhalState} {op : ZhalOp} {lives : List Life}

section

variable (h : Recorded s) (hstep : Transition s op s')
include h hstep

theorem Recorded.items_step : ItemsRecorded s'.items s'.queued s'.expired := by
  have hitems := h.items
  cases hstep with
  | sendRequest _ => exact hitems.spawn _
  | enqueue hitem _ => exact hitems.enqueue hitem
  | timeOut hitem _ _ => exact hitems.timeOut hitem _
  | timeOutQueue hitem _ hreq => exact hitems.change hitem nofun fun _ => .inr ⟨_, hreq⟩
  | wake hitem | leave hitem =>
    exact hitems.change hitem nofun fun hg => .inl (hg.resolve_right nofun)
  | takeTimedOut _ _ hitem | clearBusy _ hitem | deliver _ _ hitem =>
    exact hitems.change hitem id id
  | _ => exact hitems

theorem Recorded.aborted_step : ∀ i, s'.worker = .processing i .aborting → i ∈ s'.aborted := by
  cases hstep with
  | beginCollect | collect | endCollect | takeItem | markBusy | transmitted | abortRequest
  | clearBusy | finishWork => exact nofun
  | notTransmitted _ =>
    rintro i ⟨⟩
    simp
  | _ => exact h.aborted

theorem Recorded.answered_step :
    ∀ x i, stageOf s'.handlers x = some (.claimed i) ∨
      stageOf s'.handlers x = some (.delivering i) → i ∈ s'.answered := by
  cases hstep with
  | receiveOther _ =>
    intro x i hx
    rw [stageOf_append] at hx
    split at hx
    · simp at hx
    · exact h.answered x i hx
  | @receive n j hfound =>
    intro x i hx
    rw [stageOf_append] at hx
    split at hx
    -- the new handler has claimed the request that it found
    · obtain rfl : j = i := by simpa using hx
      simp
    · exact mem_append_left _ (h.answered x i hx)
  | @releaseQueue x _ j handler _ hhandler hstage =>
    intro y i hy
    rw [stageOf_set hhandler] at hy
    split at hy
    · obtain rfl : j = i := by simpa using hy
      exact h.answered x j (.inl (by simp [stageOf, hhandler, hstage]))
    · exact h.answered y i hy
  | deliver hhandler =>
    intro y i hy
    rw [stageOf_set hhandler] at hy
    split at hy
    · simp at hy
    · exact h.answered y i hy
  | _ => exact h.answered

end

theorem pending_delete {asyncRequests : IcHashMap Nat Nat} {k i : Nat} {P P' : Prop}
    (h : hashMapGet asyncRequests (requestIdOf i) = some i ∨ P) (hmono : P → P')
    (hout : requestIdOf i = k → P') :
    hashMapGet (hashMapDelete asyncRequests k).1 (requestIdOf i) = some i ∨ P' := by
  rw [hashMapGet_delete]
  by_cases hk : requestIdOf i = k
  · exact .inr (hout hk)
  · rw [if_neg hk]
    exact h.imp_right hmono

theorem Recorded.transmitted_step (h : Recorded s) (ht : Traced s lives)
    (hstep : Transition s op s') :
    ∀ i ∈ s'.transmitted, hashMapGet s'.asyncRequests (requestIdOf i) = some i ∨ Ended s' i := by
  cases hstep with
  | @timeOut j item hitem _ _ =>
    intro i hi
    apply pending_delete (h.transmitted i hi)
    · rintro (ha | he | hb)
      · exact .inl ha
      · exact .inr (.inl (mem_append_left _ he))
      · exact .inr (.inr hb)
    · intro hk
      obtain rfl : i = j := by simpa [requestIdOf] using hk
      exact .inr (.inl (by simp))
  | @takeItem j rest item _ hwork hitem =>
    intro i hi
    obtain ⟨hlife, -⟩ := ht.of_available hwork hitem
    have hfree : hashMapGet s.asyncRequests (requestIdOf j) = none := by
      rw [ht.async.get hlife]
      rfl
    rcases h.transmitted i hi with hp | he
    · left
      rw [hashMapGet_put hfree, if_neg, hp]
      intro hk
      rw [hk, hfree] at hp
      cases hp
    · exact .inr he
  | @markBusy j item hworker hitem _ =>
    intro i hi
    rcases mem_append.mp hi with hi | hi
    · exact h.transmitted i hi
    · obtain rfl := mem_singleton.mp hi
      obtain ⟨p, hlife, -⟩ := ht.items.ok i item hitem
      have hp := (isAt_iff hlife).mp ((ht.worker.unmarked i).mp hworker)
      -- still pending, or a handler has it already
      cases p with
      | registered =>
        left
        rw [ht.async.get hlife]
        rfl
      | early x =>
        have := (ht.handlers.claimed x i).mpr ((isAt_iff hlife).mpr (by simp [Place.claimedBy]))
        exact .inr (.inl (h.answered x i (.inl this)))
      | earlyDone x =>
        have := (ht.handlers.delivering x i).mpr
          ((isAt_iff hlife).mpr (by simp [Place.deliveringBy]))
        exact .inr (.inl (h.answered x i (.inr this)))
      | _ => cases hp
  | notTransmitted _ =>
    intro i hi
    rcases h.transmitted i hi with hp | ha | he | hb
    · exact .inl hp
    · exact .inr (.inl ha)
    · exact .inr (.inr (.inl he))
    · exact .inr (.inr (.inr (mem_append_left _ hb)))
  | @abortRequest j item hworker _ =>
    intro i hi
    apply pending_delete (h.transmitted i hi) id
    intro hk
    obtain rfl : i = j := by simpa [requestIdOf] using hk
    exact .inr (.inr (h.aborted i hworker))
  | @receive n j hfound =>
    intro i hi
    apply pending_delete (h.transmitted i hi)
    · rintro (ha | he | hb)
      · exact .inl (mem_append_left _ ha)
      · exact .inr (.inl he)
      · exact .inr (.inr hb)
    · intro hk
      have hid := ((ht.async _ j).mp hfound).1
      obtain rfl : i = j := by
        rw [← hk] at hid
        simpa [requestIdOf] using hid
      exact .inl (by simp)
  | _ => exact h.transmitted

theorem Recorded.step (h : Recorded s) (ht : Traced s lives) (hstep : Transition s op s') :
    Recorded s' :=
  ⟨h.items_step hstep, h.aborted_step hstep, h.answered_step hstep, h.transmitted_step ht hstep⟩

end

/-! ## The order of requests to one device -/

/-- The queue of a device, empty if it has none. -/
def queueOf (queues : IcHashMap UInt64 DeviceQueue) (d : UInt64) : List Nat :=
  ((hashMapGet queues d).map (·.queue)).getD []

/-- What the worker has taken from the queues and not begun to transmit. -/
def taken (worker : Worker) (availableWork : List Nat) : List Nat :=
  match worker with
  | .processing i .registered => i :: availableWork
  | _ => availableWork

def Lined (s : ZhalState) : Prop :=
  InLine (deviceOf s.items) (queueOf s.deviceQueues) (taken s.worker s.availableWork) s.transmitted
    s.expired s.queued

section

variable (queues : IcHashMap UInt64 DeviceQueue) (d : UInt64)

theorem queueOf_modify (f : DeviceQueue → DeviceQueue) (e : UInt64) :
    queueOf (hashMapModify queues d f) e =
      if e = d then ((hashMapGet queues e).map fun q => (f q).queue).getD []
      else queueOf queues e := by
  unfold queueOf
  rw [hashMapGet_modify]
  split <;> simp [Option.map_map, Function.comp_def]

variable {queues d} in
theorem queueOf_modify_of_get {q : DeviceQueue} (hq : hashMapGet queues d = some q)
    (f : DeviceQueue → DeviceQueue) (e : UInt64) :
    queueOf (hashMapModify queues d f) e = if e = d then (f q).queue else queueOf queues e := by
  rw [queueOf_modify]
  split
  · rename_i he
    rw [he, hq]
    rfl
  · rfl

theorem queueOf_addBusy (change : Int) : queueOf (addBusy queues d change) = queueOf queues := by
  funext e
  rw [addBusy, queueOf_modify]
  split <;> rfl

theorem queueOf_put : queueOf (hashMapPut queues d ⟨[], 0⟩).1 = queueOf queues := by
  funext e
  unfold queueOf
  rw [hashMapGet_put_or]
  cases hashMapGet queues e with
  | some q => rfl
  | none => by_cases he : e = d <;> simp [he]

end

section

variable {s s' : ZhalState} {op : ZhalOp} {lives : List Life} {i j : Nat}

theorem Transition.deviceOf_eq (hstep : Transition s op s') (hi : i < s.items.length) :
    deviceOf s'.items i = deviceOf s.items i := by
  cases hstep with
  | sendRequest _ => simp [deviceOf, getElem?_append_left hi]
  | enqueue hitem | timeOut hitem | timeOutQueue hitem | wake hitem | leave hitem
  | takeTimedOut _ _ hitem | clearBusy _ hitem | deliver _ _ hitem =>
    unfold deviceOf
    rw [getElem?_update hitem]
    split
    · rename_i hj
      simp [hj, hitem, abandonedItem]
    · rfl
  | _ => rfl

theorem Recorded.queued_lt (h : Recorded s) (hstep : Transition s op s') :
    ∀ i ∈ s'.queued, i < s.items.length := by
  cases hstep with
  | enqueue hitem _ =>
    intro i hi
    rcases mem_append.mp hi with hi | hi
    · exact h.items.bounded i hi
    · obtain rfl := mem_singleton.mp hi
      exact (List.getElem?_eq_some_iff.mp hitem).1
  | _ => exact h.items.bounded

/-- A request that has expired is taken out of its queue. -/
theorem Lined.timeOutQueue {q : DeviceQueue} {didDelete : Bool} (h : Lined s)
    (hexpired : i ∈ s.expired) (hq : hashMapGet s.deviceQueues d = some q) :
    Lined { s with
      deviceQueues := hashMapModify s.deviceQueues d (abandonedQueue i didDelete) } := by
  have hget : queueOf s.deviceQueues d = q.queue := by simp [queueOf, hq]
  refine InLine.withdraw h (fun e => ?_) fun e j hj => ?_ <;> rw [queueOf_modify_of_get hq] <;>
    split
  · rename_i he
    rw [he, hget]
    exact erase_sublist
  · exact List.Sublist.refl _
  · rename_i he
    by_cases hji : j = i
    · exact .inr (hji ▸ hexpired)
    · rw [he, hget] at hj
      exact .inl ((mem_erase_of_ne hji).mpr hj)
  · exact .inl hj

theorem Lined.step (h : Lined s) (hr : Recorded s) (ht : Traced s lives)
    (hstep : Transition s op s') : Lined s' := by
  refine InLine.congr ?_ fun i hi => hstep.deviceOf_eq (hr.queued_lt hstep i hi)
  unfold Lined at h
  cases hstep with
  | sendRequest _ =>
    rw [queueOf_put]
    exact h
  | @enqueue i item hitem hreq =>
    obtain ⟨p, hlife, -⟩ := ht.items.ok i item hitem
    obtain ⟨q, hq⟩ := ht.queues.known _ (mem_of_getElem? hlife)
    refine h.enqueue (d := item.eui64) (by simp [deviceOf, hitem])
      ((hr.items.each i item hitem).1 hreq) fun e => ?_
    rw [queueOf_modify_of_get hq]
    split
    · rename_i he
      simp [he, queueOf, hq]
    · rfl
  | timeOut => exact h.mono (subset_append_left _ _)
  | @timeOutQueue i item q didDelete hitem hq hreq =>
    exact Lined.timeOutQueue h ((hr.items.each i item hitem).2 (.inr ⟨_, hreq⟩)) hq
  | @collect d remaining q hworker hq hmem =>
    rw [hworker] at h
    rcases popAvailable_cases q with ⟨i, rest, -, hqueue, hpop⟩ | hpop
    · rw [hpop]
      have hfront : queueOf s.deviceQueues d = i :: rest := by simp [queueOf, hq, hqueue]
      refine h.take hfront fun e => ?_
      rw [queueOf_modify_of_get hq, hpop]
    · rw [hashMapModify_of_eq hq (by rw [hpop]), hpop, append_nil]
      exact h
  | @takeTimedOut i rest item hworker hwork hitem _ _ htimedOut =>
    rw [hworker, hwork] at h
    rw [hworker]
    exact h.drop ((hr.items.each i item hitem).2 (.inl htimedOut))
  | takeItem hworker hwork =>
    rw [hworker, hwork] at h
    exact h
  | markBusy hworker =>
    rw [hworker] at h
    rw [queueOf_addBusy]
    exact h.start
  | clearBusy hworker =>
    rw [hworker] at h
    rw [queueOf_addBusy]
    exact h
  | beginCollect hworker | endCollect hworker | transmitted hworker | notTransmitted hworker
  | abortRequest hworker | finishWork hworker =>
    rw [hworker] at h
    exact h
  | releaseQueue =>
    rw [queueOf_addBusy]
    exact h
  | _ => exact h

/-- When the worker is about to transmit a request, the earlier ones to the device have ended. -/
theorem Lined.ended_of_earlier (h : Lined s) (hr : Recorded s) (ht : Traced s lives)
    (hworker : s.worker = .processing j .registered)
    (hdevice : deviceOf s.items i = deviceOf s.items j) (hbefore : [i, j].Sublist s.queued) :
    Ended s i := by
  obtain ⟨⟨d, p⟩, hlife, hp⟩ := (ht.worker.unmarked j).mp hworker
  obtain ⟨item, hitem, rfl, -⟩ := ht.items.of_life hlife
  have hdj : deviceOf s.items j = some item.eui64 := by simp [deviceOf, hitem]
  unfold Lined at h
  rw [hworker] at h
  rcases h.earlier hdj (hdevice.trans hdj) hbefore with hs | hg
  · rcases hr.transmitted i hs with hpending | hended
    · -- it would be in flight beside `j`
      obtain ⟨⟨e, p'⟩, hlife', hp'⟩ := ((ht.async _ i).mp hpending).2
      obtain ⟨other, hother, rfl, -⟩ := ht.items.of_life hlife'
      have hsame : other.eui64 = item.eui64 := by
        have := hdevice.trans hdj
        simpa [deviceOf, hother] using this
      have hij : i = j := by
        rw [hsame] at hlife'
        have hactive : p.active = true := by cases p <;> first | rfl | cases hp
        have hactive' : p'.active = true := by cases p' <;> first | rfl | cases hp'
        exact eq_of_countP_le_one (ht.single item.eui64) ⟨_, hlife', by simp [hactive']⟩
          ⟨_, hlife, by simp [hactive]⟩
      have := hbefore.nodup h.nodup
      simp [hij] at this
    · exact hended
  · exact .inr (.inl hg)

end

/-! ## Whole runs -/

structure ZhalInv (s : ZhalState) : Prop where
  traced : ∃ lives, Traced s lives
  matched : Matched s.items s.handlers
  recorded : Recorded s
  lined : Lined s

theorem zhalInv_init : ZhalInv zhalInit where
  traced := ⟨[], traced_init⟩
  matched := ⟨by decide, by simp [zhalInit, stageOf], by simp [zhalInit]⟩
  recorded := recorded_init
  lined := inLine_nil _

theorem ZhalInv.step {s s' : ZhalState} {op : ZhalOp} {u : Unit} (h : ZhalInv s)
    (hcond : Faithful s op) (hstep : zhalStep s op = some (s', u)) : ZhalInv s' := by
  obtain ⟨⟨lives, ht⟩, hm, hr, hl⟩ := h
  have htrans := Transition.of_step hstep
  exact ⟨ht.step hcond.1 htrans, hm.step ht hcond.2 htrans, hr.step ht htrans, hl.step hr ht htrans⟩

theorem aborted_eq_nil {ops : List ZhalOp} {s : ZhalState} {os : List Unit}
    (hops : ZhalOp.xmitDone false ∉ ops) (hrun : run zhalStep zhalInit ops = some (s, os)) :
    s.aborted = [] := by
  have hguard : Guarded zhalStep (fun _ op => op ≠ .xmitDone false) zhalInit ops :=
    guarded_of_forall zhalStep zhalInit fun op hop _ => fun he => hops (he ▸ hop)
  apply run_invariant _ _ hguard hrun
  · intro s op s' u hnil hne hstep
    cases Transition.of_step hstep with
    | notTransmitted _ => exact absurd rfl hne
    | _ => exact hnil
  · rfl

/-- The request returns this response. -/
def Returns (s : ZhalState) (i h : Nat) : Prop :=
  ∃ item, s.items[i]? = some item ∧ item.requester = .returned (some h)

/-- A request to one device that is answered, and one to another that is being transmitted. -/
def twoDevices : List ZhalOp :=
  [.sendRequest 7, .enqueue 0, .sendRequest 8, .enqueue 1, .beginCollect, .collect 8, .collect 7,
    .endCollect, .takeItem, .markBusy, .xmitDone true, .takeItem, .markBusy, .xmitDone true,
    .receive (some 1), .releaseQueue 0 0, .deliver 0 0, .wake 0, .leave 0]

/-- The first request is answered although its transmission fails, so that its requester returns
and frees the item while the handler still has it.  The memory is given to the second request. -/
def answerKept : List ZhalOp :=
  [.sendRequest 7, .enqueue 0, .beginCollect, .collect 7, .endCollect, .takeItem, .markBusy,
    .receive (some 1), .releaseQueue 0 0, .xmitDone false, .abortRequest, .clearBusy, .wake 0,
    .leave 0, .sendRequest 7, .enqueue 1, .deliver 0 1, .wake 1, .leave 1]

end ZilkerSdk.Zhal
