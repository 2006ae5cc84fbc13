import ZilkerSdk.Lib.Pool
import ZilkerSdk.Zhal.Model

/-!
# What a step of the zigbee request machine does

`Transition s op s'` lists the steps of `zhalStep` one branch after another, with what holds when
the branch is taken and the state it leads to.  Everything about runs is proved by cases on it.
-/

namespace ZilkerSdk.Zhal

open Lib Option
open Types

variable {s : ZhalState} {item : WorkItem}

theorem workItem_eq_some_iff {i : Nat} :
    workItem s i = some item ↔ s.items[i]? = some item ∧ item.freed = false := by
  simp [workItem, filter_eq_some_iff]

theorem leadsTo_of_live {i found : Nat} (hitem : s.items[i]? = some item)
    (hlive : item.freed = false) (h : leadsTo s i found) : found = i := by
  have hsome : workItem s i = some item := workItem_eq_some_iff.mpr ⟨hitem, hlive⟩
  simpa [leadsTo, hsome] using h

/-- The device that a request is for. -/
def deviceOf (items : List WorkItem) (i : Nat) : Option UInt64 := items[i]?.map (·.eui64)

theorem popAvailable_cases (q : DeviceQueue) :
    (∃ i rest, q.isBusy = 0 ∧ q.queue = i :: rest ∧
      popAvailable q = ({ q with queue := rest }, [i])) ∨ popAvailable q = (q, []) := by
  unfold popAvailable
  split
  · rename_i hbusy
    split
    · exact .inr rfl
    · rename_i i rest hqueue
      exact .inl ⟨i, rest, hbusy, hqueue, rfl⟩
  · exact .inr rfl

inductive Transition (s : ZhalState) : ZhalOp → ZhalState → Prop where
  | sendRequest {eui64 : UInt64} (hworker : ∀ remaining, s.worker ≠ .collecting remaining) :
    Transition s (.sendRequest eui64) { s with
      deviceQueues := (hashMapPut s.deviceQueues eui64 ⟨[], 0⟩).1
      items := s.items ++ [newItem eui64] }
  | enqueue {i : Nat} {item : WorkItem} (hitem : s.items[i]? = some item)
    (hreq : item.requester = .preparing) :
    Transition s (.enqueue i) { s with
      items := s.items.set i { item with requester := .waiting }
      deviceQueues := hashMapModify s.deviceQueues item.eui64 fun q =>
        { q with queue := q.queue ++ [i] }
      queued := s.queued ++ [i] }
  | timeOut {i : Nat} {item : WorkItem} (hitem : s.items[i]? = some item)
    (hreq : item.requester = .waiting) (hmutex : mutexFree s i item) :
    Transition s (.timeOut i) { s with
      items := s.items.set i
        { item with requester := .timingOut (hashMapGet s.asyncRequests (requestIdOf i)).isSome }
      asyncRequests := (hashMapDelete s.asyncRequests (requestIdOf i)).1
      expired := s.expired ++ [i] }
  | timeOutQueue {i : Nat} {item : WorkItem} {q : DeviceQueue} {didDelete : Bool}
    (hitem : s.items[i]? = some item) (hq : hashMapGet s.deviceQueues item.eui64 = some q)
    (hreq : item.requester = .timingOut didDelete) :
    Transition s (.timeOutQueue i) { s with
      deviceQueues := hashMapModify s.deviceQueues item.eui64 (abandonedQueue i didDelete)
      items := s.items.set i (abandonedItem item didDelete (decide (i ∈ q.queue))) }
  | wake {i : Nat} {item : WorkItem} (hitem : s.items[i]? = some item)
    (hreq : item.requester = .waiting) (hmutex : mutexFree s i item) :
    Transition s (.wake i) { s with
      items := s.items.set i { item with requester := .leaving item.response } }
  | leave {i : Nat} {item : WorkItem} {result : Option Nat} (hitem : s.items[i]? = some item)
    (hlive : item.freed = false) (hreq : item.requester = .leaving result) :
    Transition s (.leave i) { s with
      items := s.items.set i { item with
        freed := !item.timedOut
        heir := s.items.length
        requester := .returned result } }
  | beginCollect (hworker : s.worker = .idle) :
    Transition s .beginCollect { s with
      worker := .collecting (s.deviceQueues.items.map Prod.fst) }
  | collect {eui64 : UInt64} {remaining : List UInt64} {q : DeviceQueue}
    (hworker : s.worker = .collecting remaining)
    (hq : hashMapGet s.deviceQueues eui64 = some q) (hmem : eui64 ∈ remaining) :
    Transition s (.collect eui64) { s with
      deviceQueues := hashMapModify s.deviceQueues eui64 fun q => (popAvailable q).1
      availableWork := s.availableWork ++ (popAvailable q).2
      worker := .collecting (remaining.erase eui64) }
  | endCollect (hworker : s.worker = .collecting []) :
    Transition s .endCollect { s with worker := .working }
  | takeTimedOut {i : Nat} {rest : List Nat} {item : WorkItem} (hworker : s.worker = .working)
    (hwork : s.availableWork = i :: rest) (hitem : s.items[i]? = some item)
    (hlive : item.freed = false) (hmutex : mutexFree s i item) (htimedOut : item.timedOut = true) :
    Transition s .takeItem { s with
      availableWork := rest
      items := s.items.set i { item with freed := true, heir := s.items.length } }
  | takeItem {i : Nat} {rest : List Nat} {item : WorkItem} (hworker : s.worker = .working)
    (hwork : s.availableWork = i :: rest) (hitem : s.items[i]? = some item)
    (hlive : item.freed = false) (hmutex : mutexFree s i item)
    (htimedOut : item.timedOut = false) :
    Transition s .takeItem { s with
      availableWork := rest
      asyncRequests := (hashMapPut s.asyncRequests (requestIdOf i) i).1
      worker := .processing i .registered }
  | markBusy {i : Nat} {item : WorkItem} (hworker : s.worker = .processing i .registered)
    (hitem : s.items[i]? = some item) (hlive : item.freed = false) :
    Transition s .markBusy { s with
      deviceQueues := addBusy s.deviceQueues item.eui64 1
      worker := .processing i .transmitting
      transmitted := s.transmitted ++ [i] }
  | transmitted {i : Nat} (hworker : s.worker = .processing i .transmitting) :
    Transition s (.xmitDone true) { s with worker := .working }
  | notTransmitted {i : Nat} (hworker : s.worker = .processing i .transmitting) :
    Transition s (.xmitDone false) { s with
      worker := .processing i .aborting
      aborted := s.aborted ++ [i] }
  | abortRequest {i : Nat} {item : WorkItem} (hworker : s.worker = .processing i .aborting)
    (hitem : s.items[i]? = some item) :
    Transition s .abortRequest { s with
      asyncRequests := (hashMapDelete s.asyncRequests (requestIdOf i)).1
      worker := .processing i .clearing }
  | clearBusy {i : Nat} {item : WorkItem} (hworker : s.worker = .processing i .clearing)
    (hitem : s.items[i]? = some item) (hlive : item.freed = false) :
    Transition s .clearBusy { s with
      deviceQueues := addBusy s.deviceQueues item.eui64 (-1)
      items := s.items.set i { item with signalled := true }
      worker := .working }
  | finishWork (hworker : s.worker = .working) (hwork : s.availableWork = []) :
    Transition s .finishWork { s with worker := .idle }
  | receiveOther {requestId : Option Int}
    (hfree : ∀ n, requestId = some n → hashMapGet s.asyncRequests (responseKey n) = none) :
    Transition s (.receive requestId) { s with
      handlers := s.handlers ++ [⟨requestId, .finished⟩] }
  | receive {n : Int} {i : Nat} (hfound : hashMapGet s.asyncRequests (responseKey n) = some i) :
    Transition s (.receive (some n)) { s with
      asyncRequests := (hashMapDelete s.asyncRequests (responseKey n)).1
      handlers := s.handlers ++ [⟨some n, .claimed i⟩]
      answered := s.answered ++ [i] }
  | releaseQueue {h found i : Nat} {handler : Handler} {item : WorkItem}
    (hhandler : s.handlers[h]? = some handler) (hstage : handler.stage = .claimed i)
    (hitem : s.items[found]? = some item) (hleads : leadsTo s i found) :
    Transition s (.releaseQueue h found) { s with
      deviceQueues := addBusy s.deviceQueues item.eui64 (-1)
      handlers := s.handlers.set h { handler with stage := .delivering i } }
  | deliver {h found i : Nat} {handler : Handler} {item : WorkItem}
    (hhandler : s.handlers[h]? = some handler) (hstage : handler.stage = .delivering i)
    (hitem : s.items[found]? = some item) (hleads : leadsTo s i found)
    (hmutex : mutexFree s found item) :
    Transition s (.deliver h found) { s with
      items := s.items.set found { item with response := some h, signalled := true }
      handlers := s.handlers.set h { handler with stage := .finished } }

/-- Every step is one of those listed. -/
theorem Transition.of_step {s' : ZhalState} {op : ZhalOp} {u : Unit}
    (h : zhalStep s op = some (s', u)) : Transition s op s' := by
  revert h
  fun_cases zhalStep s op <;> intro h <;>
    simp only [bind_eq_bind, bind_eq_some_iff, workItem_eq_some_iff, ite_none_right_eq_some,
      some.injEq, reduceCtorEq] at h
  -- what the requester does
  case case3 =>
    obtain ⟨item, hitem, hreq, ⟨⟩⟩ := h
    exact .enqueue hitem hreq
  case case4 =>
    obtain ⟨item, hitem, hcond, ⟨⟩⟩ := h
    rw [hashMapDelete_snd]
    exact .timeOut hitem hcond.1 hcond.2
  case case5 =>
    obtain ⟨item, hitem, q, hq, h⟩ := h
    split at h <;> cases h
    next didDelete hreq => exact .timeOutQueue hitem hq hreq
  case case6 =>
    obtain ⟨item, hitem, hcond, ⟨⟩⟩ := h
    exact .wake hitem hcond.1 hcond.2
  case case7 =>
    obtain ⟨item, ⟨hitem, hlive⟩, h⟩ := h
    split at h <;> cases h
    next result hreq => exact .leave hitem hlive hreq
  -- what the worker does with an item
  case case10 hworker =>
    obtain ⟨q, hq, hmem, ⟨⟩⟩ := h
    exact .collect hworker hq hmem
  case case14 hlist hworker =>
    obtain ⟨item, ⟨hitem, hlive⟩, hmutex, h⟩ := h
    split at h <;> cases h
    next htimedOut => exact .takeTimedOut hworker hlist hitem hlive hmutex htimedOut
    next htimedOut =>
      exact .takeItem hworker hlist hitem hlive hmutex (eq_false_of_ne_true htimedOut)
  case case16 hworker =>
    obtain ⟨item, ⟨hitem, hlive⟩, ⟨⟩⟩ := h
    exact .markBusy hworker hitem hlive
  case case18 ok i hworker =>
    obtain ⟨item, -, h⟩ := h
    cases ok <;> cases h
    · exact .notTransmitted hworker
    · exact .transmitted hworker
  case case20 hworker =>
    obtain ⟨item, hitem, ⟨⟩⟩ := h
    exact .abortRequest hworker hitem.1
  case case22 hworker =>
    obtain ⟨item, ⟨hitem, hlive⟩, ⟨⟩⟩ := h
    exact .clearBusy hworker hitem hlive
  -- what a response does with an item
  case case29 =>
    obtain ⟨x, hx, item, hitem, h⟩ := h
    split at h
    next i hstage =>
      obtain ⟨hleads, ⟨⟩⟩ := ite_none_right_eq_some.mp h
      exact .releaseQueue hx hstage hitem hleads
    next => cases h
  case case30 =>
    obtain ⟨x, hx, item, hitem, h⟩ := h
    split at h
    next i hstage =>
      obtain ⟨hcond, ⟨⟩⟩ := ite_none_right_eq_some.mp h
      exact .deliver hx hstage hitem hcond.1 hcond.2
    next => cases h
  all_goals obtain ⟨⟩ := h
  case case2 hworker => exact .sendRequest hworker
  case case8 hworker => exact .beginCollect hworker
  case case12 hworker => exact .endCollect hworker
  case case24 hwork hworker => exact .finishWork hworker hwork
  case case26 => exact .receiveOther fun _ hm => absurd hm (some_ne_none _).symm
  case case27 hfree => exact .receiveOther fun m hm => some.inj hm ▸ hfree
  case case28 hfound => exact .receive hfound

end ZilkerSdk.Zhal
