import ZilkerSdk.Zhal.Moves

/-!
# The busy counter of a device queue

`isBusy` of a device queue is raised by the worker and lowered by whoever ends the request: the
handler of its response, the worker itself when the transmission fails, or the requester when it
times out.  This module shows that the counter says how many requests of the device are in flight,
which is none or one, in every run in which nobody loses track of an item and no response comes
before the queue has been marked.
-/

namespace ZilkerSdk.Zhal

open Lib
open Types

/-! ## Requests in flight -/

/-- The worker has marked the queue for the request and the mark is still to be cleared: the
request is in `asyncRequests`, or someone has taken it out and has not come to the mark. -/
def InFlight (s : ZhalState) (i : Nat) : Prop :=
  s.worker ≠ .processing i .registered ∧
    (hashMapGet s.asyncRequests (requestIdOf i) = some i ∨
      (∃ handler ∈ s.handlers, handler.stage = .claimed i) ∨
      (∃ item ∈ s.items[i]?, item.requester = .timingOut true) ∨
      s.worker = .processing i .clearing)

instance (s : ZhalState) (i : Nat) : Decidable (InFlight s i) := by
  delta InFlight
  infer_instance

/-- How many requests to a device are in flight. -/
def inFlight (s : ZhalState) (eui64 : UInt64) : Nat :=
  (List.range s.items.length).countP fun i =>
    decide (deviceOf s.items i = some eui64) && decide (InFlight s i)

section

variable {s : ZhalState} {lives : List Life} {i : Nat} {d : UInt64} {p : Place}

theorem mem_handlers_iff {handlers : List Handler} {stage : HandlerStage} :
    (∃ handler ∈ handlers, handler.stage = stage) ↔ ∃ h, stageOf handlers h = some stage := by
  constructor
  · rintro ⟨handler, hmem, hstage⟩
    obtain ⟨h, hh⟩ := List.getElem?_of_mem hmem
    exact ⟨h, by simp [stageOf, hh, hstage]⟩
  · rintro ⟨h, hh⟩
    obtain ⟨handler, hhandler, hstage⟩ := Option.map_eq_some_iff.mp hh
    exact ⟨handler, List.mem_of_getElem? hhandler, hstage⟩

theorem Traced.inFlight_iff (h : Traced s lives) (hlife : lives[i]? = some ⟨d, p⟩) :
    InFlight s i ↔ p.busy = true := by
  obtain ⟨item, hitem, -, hok⟩ := h.items.of_life hlife
  have hunmarked := (h.worker.unmarked i).trans (isAt_iff hlife)
  have hclearing := (h.worker.clearing i).trans (isAt_iff hlife)
  have hclaimed := fun x => (h.handlers.claimed x i).trans (isAt_iff hlife)
  have hitems : (∃ item ∈ s.items[i]?, item.requester = .timingOut true) ↔ p = .timingOut := by
    simp [hitem, hok.timingOut_iff]
  rw [InFlight, mem_handlers_iff, h.async.get hlife, hitems, hclearing, ne_eq, hunmarked]
  simp only [hclaimed]
  cases p <;> simp [Place.unmarked, Place.inAsync, Place.claimedBy, Place.isClearing, Place.busy]

theorem Traced.inFlight_eq (h : Traced s lives) (d : UInt64) :
    inFlight s d = tally d Place.busy lives := by
  rw [inFlight, tally, countP_eq_range _ lives, h.items.length]
  refine List.countP_congr fun i hi => ?_
  rw [← h.items.length, List.mem_range] at hi
  have hlife := List.getElem?_eq_getElem hi
  obtain ⟨item, hitem, hdevice, -⟩ := h.items.of_life hlife
  simp [hlife, deviceOf, hitem, hdevice, h.inFlight_iff hlife]

end

/-! ## Responses that come too early -/

/-- No response comes between the registration of a request and the mark on its queue. -/
def Timely (s : ZhalState) : ZhalOp → Prop
  | .receive (some n) =>
    ∀ i ∈ hashMapGet s.asyncRequests (responseKey n), s.worker ≠ .processing i .registered
  | _ => True

instance (s : ZhalState) (op : ZhalOp) : Decidable (Timely s op) := by
  delta Timely
  split <;> infer_instance

def Orderly (s : ZhalState) (op : ZhalOp) : Prop := KeepsTrack s op ∧ Timely s op

instance (s : ZhalState) (op : ZhalOp) : Decidable (Orderly s op) :=
  inferInstanceAs (Decidable (_ ∧ _))

/-- No handler has the request that the worker is about to mark the queue for. -/
def Unanswered (s : ZhalState) : Prop :=
  ∀ i, s.worker = .processing i .registered → ∀ h,
    stageOf s.handlers h ≠ some (.claimed i) ∧ stageOf s.handlers h ≠ some (.delivering i)

variable {s : ZhalState} {lives : List Life}

theorem Unanswered.step {s' : ZhalState} {op : ZhalOp} (h : Unanswered s) (ht : Traced s lives)
    (hcond : Timely s op) (hstep : Transition s op s') : Unanswered s' := by
  cases hstep with
  | sendRequest | enqueue | timeOut | timeOutQueue | wake | leave | takeTimedOut => exact h
  | takeItem hworker hwork hitem =>
    rintro i ⟨⟩ x
    -- the request comes from `availableWork`, so no handler has it
    obtain ⟨hlife, -⟩ := ht.of_available hwork hitem
    rw [ne_eq, ht.handlers.claimed, ne_eq, ht.handlers.delivering, isAt_iff hlife, isAt_iff hlife]
    simp [Place.claimedBy, Place.deliveringBy]
  | receiveOther =>
    intro i hi x
    rw [stageOf_append]
    split
    · simp
    · exact h i hi x
  | @receive n j hfound =>
    intro i hi x
    rw [stageOf_append]
    split
    · have hne : i ≠ j := by
        rintro rfl
        exact hcond i hfound hi
      simp [hne.symm]
    · exact h i hi x
  | @releaseQueue x _ j handler _ hhandler hstage =>
    intro i hi y
    rw [stageOf_set hhandler]
    split
    · have hne : i ≠ j := by
        rintro rfl
        exact (h i hi x).1 (by simp [stageOf, hhandler, hstage])
      simp [hne.symm]
    · exact h i hi y
  | deliver hhandler hstage =>
    intro i hi y
    rw [stageOf_set hhandler]
    split
    · simp
    · exact h i hi y
  | _ => rintro i ⟨⟩

theorem Traced.overdrawn_eq_zero (ht : Traced s lives) (h : Unanswered s) (d : UInt64) :
    tally d Place.overdrawn lives = 0 := by
  rw [tally, List.countP_eq_zero]
  rintro ⟨e, p⟩ hmem
  obtain ⟨i, hlife⟩ := List.getElem?_of_mem hmem
  cases p with
  | earlyDone x =>
    have hworker := ht.worker_of_unmarked hlife rfl
    have hstage := (ht.handlers.delivering x i).mpr
      ((isAt_iff hlife).mpr (by simp [Place.deliveringBy]))
    exact absurd hstage (h i hworker x).2
  | _ => simp [Place.overdrawn]

/-! ## The counter over whole runs -/

theorem orderly_run {ops : List ZhalOp} {os : List Unit}
    (hguard : Guarded zhalStep Orderly zhalInit ops)
    (hrun : run zhalStep zhalInit ops = some (s, os)) :
    (∃ lives, Traced s lives) ∧ Unanswered s := by
  apply run_invariant _ ⟨⟨[], traced_init⟩, nofun⟩ hguard hrun
  rintro s op s' u ⟨⟨lives, ht⟩, hu⟩ hcond hstep
  have htrans := Transition.of_step hstep
  exact ⟨ht.step hcond.1 htrans, hu.step ht hcond.2 htrans⟩

/-- Two requests to a device, of which the first is being transmitted. -/
def firstTransmission : List ZhalOp :=
  [.sendRequest 7, .enqueue 0, .sendRequest 7, .enqueue 1, .beginCollect, .collect 7, .endCollect,
    .takeItem, .markBusy]

/-- The response to the first request comes while it is transmitted, and then the transmission
fails. -/
def answeredAndFailed : List ZhalOp :=
  firstTransmission ++ [.receive (some 1), .releaseQueue 0 0, .xmitDone false, .abortRequest,
    .clearBusy]

end ZilkerSdk.Zhal
