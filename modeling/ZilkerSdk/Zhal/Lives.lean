import ZilkerSdk.Zhal.Transition

/-!
# The lives of the requests

Every request to the zigbee core is at one place at a time: with its requester, in the queue of
its device, with the worker, in `asyncRequests`, with the thread that handles its response.  The
state of the library is spread over queues, maps and threads that only together say where a
request is.  This module says what each of them knows about the places, and what is left of that
when one request moves from one place to another.
-/

namespace ZilkerSdk.Zhal

open Lib List
open Types

/-! ## Places -/

/-- Where a request is.  A response may come before the worker has marked the queue busy, and its
handler may even clear the mark before it is made: these are the two early places. -/
inductive Place where
  | preparing
  | queued
  /-- in `availableWork` -/
  | popped
  /-- in `asyncRequests`, before the queue has been marked -/
  | registered
  | early (handler : Nat)
  | earlyDone (handler : Nat)
  /-- in `asyncRequests`, with the queue marked -/
  | flying
  | claimed (handler : Nat)
  /-- the handler has cleared the mark -/
  | delivering (handler : Nat)
  /-- the requester has taken it out of `asyncRequests` -/
  | timingOut
  /-- the worker has taken it out of `asyncRequests` -/
  | clearing
  | done
deriving DecidableEq

namespace Place

def isQueued : Place → Bool
  | queued => true
  | _ => false

def isPopped : Place → Bool
  | popped => true
  | _ => false

/-- The worker has registered it and has not marked the queue. -/
def unmarked : Place → Bool
  | registered | early _ | earlyDone _ => true
  | _ => false

def inAsync : Place → Bool
  | registered | flying => true
  | _ => false

def claimedBy (h : Nat) : Place → Bool
  | early h' | claimed h' => h' = h
  | _ => false

def deliveringBy (h : Nat) : Place → Bool
  | earlyDone h' | delivering h' => h' = h
  | _ => false

def isClearing : Place → Bool
  | clearing => true
  | _ => false

/-- The queue has been marked for it. -/
def busy : Place → Bool
  | flying | claimed _ | timingOut | clearing => true
  | _ => false

/-- The mark has been cleared before it was made. -/
def overdrawn : Place → Bool
  | earlyDone _ => true
  | _ => false

/-- The worker has taken it from the queue, and nobody has cleared the mark for good. -/
def active (p : Place) : Bool := p.isPopped || p.unmarked || p.busy

/-- What it adds to the busy counter. -/
def weight (p : Place) : Int := (if p.busy then 1 else 0) - (if p.overdrawn then 1 else 0)

end Place

structure Life where
  device : UInt64
  place : Place
deriving DecidableEq

variable {lives : List Life} {i : Nat} {d : UInt64} {p p' : Place}

/-- How many requests to a device are at places of some kind. -/
def tally (d : UInt64) (kind : Place → Bool) (lives : List Life) : Nat :=
  lives.countP fun life => life.device = d && kind life.place

/-- The request is at a place of some kind. -/
def IsAt (kind : Place → Bool) (lives : List Life) (i : Nat) : Prop :=
  HasAt (fun life => kind life.place) lives i

variable {kind : Place → Bool} {items : List WorkItem} {item item' : WorkItem}
  {queues : IcHashMap UInt64 DeviceQueue} {worker worker' : Worker} {availableWork : List Nat}
  {remaining : List UInt64} {handlers : List Handler} {asyncRequests : IcHashMap Nat Nat}

theorem isAt_iff (h : lives[i]? = some ⟨d, p⟩) : IsAt kind lives i ↔ kind p = true :=
  hasAt_iff h

theorem isAt_move (kind : Place → Bool) (h : lives[i]? = some ⟨d, p⟩) (p' : Place) (j : Nat) :
    IsAt kind (lives.set i ⟨d, p'⟩) j ↔ if j = i then kind p' = true else IsAt kind lives j := by
  unfold IsAt HasAt
  rw [getElem?_update h]
  split <;> simp

theorem isAt_move_of_eq (h : lives[i]? = some ⟨d, p⟩) (hkind : kind p' = kind p) (j : Nat) :
    IsAt kind (lives.set i ⟨d, p'⟩) j ↔ IsAt kind lives j := by
  rw [isAt_move kind h]
  split
  · rename_i hj
    rw [hj, isAt_iff h, hkind]
  · rfl

theorem isAt_spawn (hkind : kind .preparing = false) (j : Nat) :
    IsAt kind (lives ++ [⟨d, .preparing⟩]) j ↔ IsAt kind lives j := by
  unfold IsAt HasAt
  rw [getElem?_spawn]
  split
  · rename_i hj
    simp [hj, hkind]
  · exact Iff.rfl

theorem tally_move (kind : Place → Bool) (h : lives[i]? = some ⟨d, p⟩) (p' : Place) (e : UInt64) :
    tally e kind (lives.set i ⟨d, p'⟩) + (if d = e ∧ kind p = true then 1 else 0) =
      tally e kind lives + (if d = e ∧ kind p' = true then 1 else 0) := by
  have := countP_update (fun life : Life => life.device = e && kind life.place) h ⟨d, p'⟩
  simpa only [tally, Bool.and_eq_true, decide_eq_true_eq] using this

theorem tally_spawn (hkind : kind .preparing = false) (e : UInt64) :
    tally e kind (lives ++ [⟨d, .preparing⟩]) = tally e kind lives := by
  simp [tally, hkind]

/-! ## The items -/

/-- Nothing has happened to the item yet. -/
def Fresh (item : WorkItem) : Prop :=
  item.freed = false ∧ item.signalled = false ∧ item.timedOut = false

/-- The item is there for whoever has it: its requester waits, or has given up and left it. -/
def Alive (item : WorkItem) : Prop :=
  item.freed = false ∧ item.signalled = false ∧
    (item.timedOut = false ∧ (item.requester = .waiting ∨ item.requester = .timingOut false) ∨
      item.timedOut = true ∧ (item.requester = .leaving none ∨ item.requester = .returned none))

/-- What the place of a request says about its item. -/
def ItemOk (item : WorkItem) : Place → Prop
  | .preparing => Fresh item ∧ item.requester = .preparing
  | .queued => Fresh item ∧ (item.requester = .waiting ∨ item.requester = .timingOut false)
  | .popped | .claimed _ | .delivering _ => Alive item
  | .registered | .early _ | .earlyDone _ | .flying | .clearing =>
    Fresh item ∧ item.requester = .waiting
  | .timingOut => Fresh item ∧ item.requester = .timingOut true
  | .done => item.requester ≠ .preparing ∧ item.requester ≠ .timingOut true

structure ItemsTraced (items : List WorkItem) (lives : List Life) : Prop where
  length : lives.length = items.length
  ok : ∀ (i : Nat) (item : WorkItem), items[i]? = some item →
    ∃ p, lives[i]? = some ⟨item.eui64, p⟩ ∧ ItemOk item p

theorem ItemsTraced.of_life (h : ItemsTraced items lives) (hlife : lives[i]? = some ⟨d, p⟩) :
    ∃ item, items[i]? = some item ∧ item.eui64 = d ∧ ItemOk item p := by
  have hlt := (List.getElem?_eq_some_iff.mp hlife).1
  rw [h.length] at hlt
  have hitem := getElem?_eq_getElem hlt
  obtain ⟨p', hlife', hok⟩ := h.ok i _ hitem
  cases Option.some.inj (hlife.symm.trans hlife')
  exact ⟨_, hitem, rfl, hok⟩

/-- A request moves, and its item changes with it. -/
theorem ItemsTraced.move (h : ItemsTraced items lives) (hitem : items[i]? = some item)
    (hlife : lives[i]? = some ⟨item.eui64, p⟩) (heui64 : item'.eui64 = item.eui64)
    (hok : ItemOk item' p') :
    ItemsTraced (items.set i item') (lives.set i ⟨item.eui64, p'⟩) where
  length := by simpa using h.length
  ok := by
    intro j other hj
    rw [getElem?_update hitem] at hj
    rw [getElem?_update hlife]
    split at hj
    · cases hj
      exact ⟨p', by rw [if_pos ‹_›, heui64], hok⟩
    · rw [if_neg ‹_›]
      exact h.ok j other hj

theorem set_self {α : Type*} {pool : List α} {i : Nat} {a : α} (h : pool[i]? = some a) :
    pool.set i a = pool := by
  obtain ⟨hi, rfl⟩ := List.getElem?_eq_some_iff.mp h
  exact set_getElem_self hi

section

variable (h : ItemsTraced items lives) (hitem : items[i]? = some item)
  (hlife : lives[i]? = some ⟨item.eui64, p⟩)
include h hitem hlife

theorem ItemsTraced.change (heui64 : item'.eui64 = item.eui64) (hok : ItemOk item' p) :
    ItemsTraced (items.set i item') lives := by
  have := h.move hitem hlife heui64 hok
  rwa [set_self hlife] at this

theorem ItemsTraced.moveLife (hok : ItemOk item p') :
    ItemsTraced items (lives.set i ⟨item.eui64, p'⟩) := by
  have := h.move hitem hlife rfl hok
  rwa [set_self hitem] at this

end

theorem ItemsTraced.spawn (h : ItemsTraced items lives) (d : UInt64) :
    ItemsTraced (items ++ [newItem d]) (lives ++ [⟨d, .preparing⟩]) where
  length := by simp [h.length]
  ok := by
    intro j other hj
    rw [getElem?_spawn] at hj
    rw [getElem?_spawn, h.length]
    split at hj
    · cases hj
      exact ⟨.preparing, by rw [if_pos ‹_›]; rfl, ⟨rfl, rfl, rfl⟩, rfl⟩
    · rw [if_neg ‹_›]
      exact h.ok j other hj

/-! ## The device queues -/

structure QueuesTraced (queues : IcHashMap UInt64 DeviceQueue) (lives : List Life) : Prop where
  known : ∀ life ∈ lives, ∃ q, hashMapGet queues life.device = some q
  nodup : ∀ d q, hashMapGet queues d = some q → q.queue.Nodup
  mem : ∀ d q, hashMapGet queues d = some q → ∀ i : Nat,
    i ∈ q.queue ↔ lives[i]? = some ⟨d, .queued⟩
  busy : ∀ d q, hashMapGet queues d = some q →
    q.isBusy = tally d Place.busy lives - tally d Place.overdrawn lives

/-- The queue of the device after one of its requests has moved. -/
structure QueueMoved (i : Nat) (p p' : Place) (q q' : DeviceQueue) : Prop where
  nodup : q.queue.Nodup → q'.queue.Nodup
  mem : ∀ j, j ∈ q'.queue ↔ if j = i then p'.isQueued = true else j ∈ q.queue
  busy : q'.isBusy = q.isBusy + (p'.weight - p.weight)

section

variable (h : QueuesTraced queues lives) (hlife : lives[i]? = some ⟨d, p⟩)
include h hlife

theorem QueuesTraced.move {f : DeviceQueue → DeviceQueue}
    (hf : ∀ q, hashMapGet queues d = some q → QueueMoved i p p' q (f q)) :
    QueuesTraced (hashMapModify queues d f) (lives.set i ⟨d, p'⟩) := by
  -- a queue after the move is the old one, changed if it is the one of the device
  have hcases : ∀ e q', hashMapGet (hashMapModify queues d f) e = some q' →
      ∃ q, hashMapGet queues e = some q ∧ (e = d ∧ q' = f q ∨ e ≠ d ∧ q' = q) := by
    intro e q' hq'
    rw [hashMapGet_modify] at hq'
    split at hq'
    · obtain ⟨q, hq, rfl⟩ := Option.map_eq_some_iff.mp hq'
      exact ⟨q, hq, .inl ⟨‹_›, rfl⟩⟩
    · exact ⟨q', hq', .inr ⟨‹_›, rfl⟩⟩
  refine ⟨?_, ?_, ?_, ?_⟩
  · intro life hmem
    have hdevice : ∃ old ∈ lives, old.device = life.device := by
      rcases mem_or_eq_of_mem_set hmem with hold | rfl
      · exact ⟨life, hold, rfl⟩
      · exact ⟨_, mem_of_getElem? hlife, rfl⟩
    obtain ⟨old, hold, heq⟩ := hdevice
    obtain ⟨q, hq⟩ := h.known old hold
    rw [hashMapGet_modify, ← heq, hq]
    split <;> exact ⟨_, rfl⟩
  · intro e q' hq'
    obtain ⟨q, hq, ⟨rfl, rfl⟩ | ⟨-, rfl⟩⟩ := hcases e q' hq'
    · exact (hf q hq).nodup (h.nodup e q hq)
    · exact h.nodup e q' hq
  · intro e q' hq' j
    rw [getElem?_update hlife]
    obtain ⟨q, hq, ⟨rfl, rfl⟩ | ⟨hne, rfl⟩⟩ := hcases e q' hq'
    · rw [(hf q hq).mem j]
      split
      · cases p' <;> simp [Place.isQueued]
      · exact h.mem e q hq j
    · rw [h.mem e q' hq j]
      split
      · rename_i hj
        simp [hj, hlife, hne.symm]
      · exact Iff.rfl
  · intro e q' hq'
    have hbusy := tally_move Place.busy hlife p' e
    have hover := tally_move Place.overdrawn hlife p' e
    obtain ⟨q, hq, ⟨rfl, rfl⟩ | ⟨hne, rfl⟩⟩ := hcases e q' hq'
    · rw [(hf q hq).busy, h.busy e q hq]
      simp only [Place.weight, true_and] at hbusy hover ⊢
      split_ifs at hbusy hover ⊢ <;> omega
    · rw [h.busy e q' hq]
      simp only [hne.symm, false_and, if_false] at hbusy hover
      omega

/-- A request that is in no queue moves, and the counter follows. -/
theorem QueuesTraced.bump {change : Int} (hp : p.isQueued = false) (hp' : p'.isQueued = false)
    (hchange : p'.weight - p.weight = change) :
    QueuesTraced (addBusy queues d change) (lives.set i ⟨d, p'⟩) := by
  refine h.move hlife fun q hq => ⟨id, fun j => ?_, by rw [hchange]⟩
  split
  · rename_i hj
    rw [h.mem d q hq j, hj, hlife, hp']
    cases p <;> simp_all [Place.isQueued]
  · exact Iff.rfl

theorem QueuesTraced.still (hp : p.isQueued = false) (hp' : p'.isQueued = false)
    (hweight : p'.weight = p.weight) : QueuesTraced queues (lives.set i ⟨d, p'⟩) := by
  have := h.bump hlife hp hp' (by rw [hweight, Int.sub_self])
  simpa [addBusy, hashMapModify_id] using this

end

theorem QueuesTraced.spawn (h : QueuesTraced queues lives) (d : UInt64) :
    QueuesTraced (hashMapPut queues d ⟨[], 0⟩).1 (lives ++ [⟨d, .preparing⟩]) := by
  -- the queues that were there stay, and a new one is empty
  have hcases : ∀ e q, hashMapGet (hashMapPut queues d ⟨[], 0⟩).1 e = some q →
      hashMapGet queues e = some q ∨ hashMapGet queues e = none ∧ q = ⟨[], 0⟩ := by
    intro e q hq
    rw [hashMapGet_put_or, Option.or_eq_some_iff] at hq
    refine hq.imp_right fun ⟨hfree, hq⟩ => ⟨hfree, ?_⟩
    exact (Option.some.inj (Option.ite_none_right_eq_some.mp hq).2).symm
  -- a device without a queue has no requests
  have hnone : ∀ e, hashMapGet queues e = none → ∀ life ∈ lives, life.device ≠ e := by
    rintro e he life hmem rfl
    obtain ⟨q, hq⟩ := h.known life hmem
    rw [he] at hq
    cases hq
  have hzero : ∀ e kind, hashMapGet queues e = none → tally e kind lives = 0 := by
    intro e kind he
    rw [tally, countP_eq_zero]
    intro life hmem
    simp [hnone e he life hmem]
  refine ⟨?_, ?_, ?_, ?_⟩
  · intro life hmem
    rcases mem_append.mp hmem with hold | hnew
    · obtain ⟨q, hq⟩ := h.known life hold
      exact ⟨q, by rw [hashMapGet_put_or, hq, Option.some_or]⟩
    · obtain rfl := mem_singleton.mp hnew
      rw [hashMapGet_put_or, if_pos rfl]
      cases hashMapGet queues d <;> exact ⟨_, rfl⟩
  · intro e q hq
    rcases hcases e q hq with hold | ⟨-, rfl⟩
    · exact h.nodup e q hold
    · exact nodup_nil
  · intro e q hq j
    have hqueued : (lives ++ [⟨d, .preparing⟩])[j]? = some ⟨e, .queued⟩ ↔
        lives[j]? = some ⟨e, .queued⟩ := by
      rw [getElem?_spawn]
      split
      · rename_i hj
        simp [hj]
      · exact Iff.rfl
    rw [hqueued]
    rcases hcases e q hq with hold | ⟨hfree, rfl⟩
    · exact h.mem e q hold j
    · refine ⟨fun hj => absurd hj not_mem_nil, fun hj => ?_⟩
      exact absurd rfl (hnone e hfree _ (mem_of_getElem? hj))
  · intro e q hq
    rw [tally_spawn rfl, tally_spawn rfl]
    rcases hcases e q hq with hold | ⟨hfree, rfl⟩
    · exact h.busy e q hold
    · simp [hzero e _ hfree]

/-! ## The worker -/

structure WorkerTraced (worker : Worker) (availableWork : List Nat) (lives : List Life) : Prop where
  nodup : availableWork.Nodup
  popped : ∀ i, i ∈ availableWork ↔ IsAt Place.isPopped lives i
  idle : worker = .idle → availableWork = []
  nodupRemaining : ∀ remaining, worker = .collecting remaining → remaining.Nodup
  /-- nothing has been taken from a queue that is still to be visited -/
  remaining : ∀ remaining, worker = .collecting remaining →
    ∀ life ∈ lives, life.place = .popped → life.device ∉ remaining
  unmarked : ∀ i, worker = .processing i .registered ↔ IsAt Place.unmarked lives i
  clearing : ∀ i, worker = .processing i .clearing ↔ IsAt Place.isClearing lives i

/-- A request moves that the worker does not have. -/
theorem WorkerTraced.move (h : WorkerTraced worker availableWork lives)
    (hlife : lives[i]? = some ⟨d, p⟩) (hpopped : p'.isPopped = p.isPopped)
    (hunmarked : p'.unmarked = p.unmarked) (hclearing : p'.isClearing = p.isClearing) :
    WorkerTraced worker availableWork (lives.set i ⟨d, p'⟩) where
  __ := h
  popped j := by rw [isAt_move_of_eq hlife hpopped, h.popped]
  remaining r hr life hmem hplace := by
    rcases mem_or_eq_of_mem_set hmem with hold | rfl
    · exact h.remaining r hr life hold hplace
    · have hp : p = .popped := by cases p <;> simp_all [Place.isPopped]
      exact h.remaining r hr ⟨d, p⟩ (mem_of_getElem? hlife) hp
  unmarked j := by rw [isAt_move_of_eq hlife hunmarked, h.unmarked]
  clearing j := by rw [isAt_move_of_eq hlife hclearing, h.clearing]

theorem WorkerTraced.spawn (h : WorkerTraced worker availableWork lives) (d : UInt64) :
    WorkerTraced worker availableWork (lives ++ [⟨d, .preparing⟩]) where
  __ := h
  popped j := by rw [isAt_spawn rfl, h.popped]
  remaining r hr life hmem hplace := by
    rcases mem_append.mp hmem with hold | hnew
    · exact h.remaining r hr life hold hplace
    · obtain rfl := mem_singleton.mp hnew
      cases hplace
  unmarked j := by rw [isAt_spawn rfl, h.unmarked]
  clearing j := by rw [isAt_spawn rfl, h.clearing]

/-- The stages of the worker in which it has no request of its own to account for. -/
def Worker.quiet : Worker → Bool
  | .working | .processing _ .transmitting | .processing _ .aborting => true
  | _ => false

theorem Worker.quiet_ne (h : worker.quiet = true) (i : Nat) :
    worker ≠ .processing i .registered ∧ worker ≠ .processing i .clearing := by
  constructor <;> (rintro rfl; cases h)

theorem WorkerTraced.switch (h : WorkerTraced worker availableWork lives)
    (hnone : ∀ i, worker ≠ .processing i .registered ∧ worker ≠ .processing i .clearing)
    (hquiet : worker'.quiet = true) : WorkerTraced worker' availableWork lives where
  __ := h
  idle := by rintro rfl; cases hquiet
  nodupRemaining := by rintro _ rfl; cases hquiet
  remaining := by rintro _ rfl; cases hquiet
  unmarked j := by simp [← h.unmarked j, (hnone j).1, (Worker.quiet_ne hquiet j).1]
  clearing j := by simp [← h.clearing j, (hnone j).2, (Worker.quiet_ne hquiet j).2]

theorem WorkerTraced.visit (h : WorkerTraced (.collecting remaining) availableWork lives)
    (d : UInt64) :
    WorkerTraced (.collecting (remaining.erase d)) availableWork lives where
  __ := h
  idle := (nomatch ·)
  nodupRemaining := by
    rintro _ ⟨⟩
    exact (h.nodupRemaining remaining rfl).erase d
  remaining := by
    rintro _ ⟨⟩ life hmem hplace hin
    exact h.remaining remaining rfl life hmem hplace (mem_of_mem_erase hin)
  unmarked j := by simp [← h.unmarked j]
  clearing j := by simp [← h.clearing j]

theorem WorkerTraced.pop (h : WorkerTraced (.collecting remaining) availableWork lives)
    (hlife : lives[i]? = some ⟨d, .queued⟩) :
    WorkerTraced (.collecting (remaining.erase d)) (availableWork ++ [i])
      (lives.set i ⟨d, .popped⟩) where
  nodup := by
    have hnew : i ∉ availableWork := by
      rw [h.popped, isAt_iff hlife]
      simp [Place.isPopped]
    rw [← concat_eq_append]
    exact h.nodup.concat hnew
  popped j := by
    rw [isAt_move _ hlife, mem_append, mem_singleton, h.popped]
    by_cases hj : j = i <;> simp [hj, Place.isPopped]
  idle := (nomatch ·)
  nodupRemaining := by
    rintro _ ⟨⟩
    exact (h.nodupRemaining remaining rfl).erase d
  remaining := by
    rintro _ ⟨⟩ life hmem hplace hin
    rw [(h.nodupRemaining remaining rfl).mem_erase_iff] at hin
    rcases mem_or_eq_of_mem_set hmem with hold | rfl
    · exact h.remaining remaining rfl life hold hplace hin.2
    · exact hin.1 rfl
  unmarked j := by
    have hsame : Place.unmarked .popped = Place.unmarked .queued := rfl
    simp [isAt_move_of_eq hlife hsame, ← h.unmarked j]
  clearing j := by
    have hsame : Place.isClearing .popped = Place.isClearing .queued := rfl
    simp [isAt_move_of_eq hlife hsame, ← h.clearing j]

/-- The worker turns to the items it has got, or goes on with one of them. -/
theorem WorkerTraced.act {availableWork' : List Nat} (h : WorkerTraced worker availableWork lives)
    (hlife : lives[i]? = some ⟨d, p⟩)
    (hworker' : worker' = .working ∨ ∃ j stage, worker' = .processing j stage)
    (hnodup : availableWork'.Nodup)
    (hpopped : ∀ j, j ∈ availableWork' ↔ if j = i then p'.isPopped = true else j ∈ availableWork)
    (hunmarked : ∀ j, worker' = .processing j .registered ↔
      if j = i then p'.unmarked = true else worker = .processing j .registered)
    (hclearing : ∀ j, worker' = .processing j .clearing ↔
      if j = i then p'.isClearing = true else worker = .processing j .clearing) :
    WorkerTraced worker' availableWork' (lives.set i ⟨d, p'⟩) where
  nodup := hnodup
  popped j := by rw [isAt_move _ hlife, hpopped, h.popped]
  idle := by
    rintro rfl
    simp at hworker'
  nodupRemaining := by
    rintro _ rfl
    simp at hworker'
  remaining := by
    rintro _ rfl
    simp at hworker'
  unmarked j := by rw [isAt_move _ hlife, hunmarked, h.unmarked]
  clearing j := by rw [isAt_move _ hlife, hclearing, h.clearing]

/-! ## The handlers of responses -/

/-- The stage that a handler has reached. -/
def stageOf (handlers : List Handler) (h : Nat) : Option HandlerStage :=
  handlers[h]?.map (·.stage)

structure HandlersTraced (handlers : List Handler) (lives : List Life) : Prop where
  claimed : ∀ h i, stageOf handlers h = some (.claimed i) ↔ IsAt (Place.claimedBy h) lives i
  delivering : ∀ h i,
    stageOf handlers h = some (.delivering i) ↔ IsAt (Place.deliveringBy h) lives i

theorem HandlersTraced.move (h : HandlersTraced handlers lives) (hlife : lives[i]? = some ⟨d, p⟩)
    (hclaimed : ∀ x, p'.claimedBy x = p.claimedBy x)
    (hdelivering : ∀ x, p'.deliveringBy x = p.deliveringBy x) :
    HandlersTraced handlers (lives.set i ⟨d, p'⟩) where
  claimed x j := by rw [isAt_move_of_eq hlife (hclaimed x), h.claimed]
  delivering x j := by rw [isAt_move_of_eq hlife (hdelivering x), h.delivering]

theorem HandlersTraced.spawn (h : HandlersTraced handlers lives) (d : UInt64) :
    HandlersTraced handlers (lives ++ [⟨d, .preparing⟩]) where
  claimed x j := by rw [isAt_spawn rfl, h.claimed]
  delivering x j := by rw [isAt_spawn rfl, h.delivering]

theorem stageOf_append (handlers : List Handler) (x : Handler) (h : Nat) :
    stageOf (handlers ++ [x]) h =
      if h = handlers.length then some x.stage else stageOf handlers h := by
  unfold stageOf
  rw [getElem?_spawn]
  split <;> rfl

theorem stageOf_set {h : Nat} {x : Handler} (hx : handlers[h]? = some x) (x' : Handler) (j : Nat) :
    stageOf (handlers.set h x') j = if j = h then some x'.stage else stageOf handlers j := by
  unfold stageOf
  rw [getElem?_update hx]
  split <;> rfl

theorem HandlersTraced.receiveOther (h : HandlersTraced handlers lives) (requestId : Option Int) :
    HandlersTraced (handlers ++ [⟨requestId, .finished⟩]) lives := by
  have hnone : stageOf handlers handlers.length = none := by simp [stageOf]
  constructor
  all_goals
    intro x j
    simp only [← h.claimed x j, ← h.delivering x j, stageOf_append]
    split
    · rename_i hx
      simp [hx, hnone]
    · exact Iff.rfl

theorem HandlersTraced.act {handlers' : List Handler} {x : Nat} {stage : HandlerStage}
    (h : HandlersTraced handlers lives) (hlife : lives[i]? = some ⟨d, p⟩)
    (hstage : ∀ y, stageOf handlers' y = if y = x then some stage else stageOf handlers y)
    (hold : ∀ j, j ≠ i → stageOf handlers x ≠ some (.claimed j) ∧
      stageOf handlers x ≠ some (.delivering j))
    (hclaimed : ∀ j, stage = .claimed j ↔ j = i ∧ p'.claimedBy x = true)
    (hdelivering : ∀ j, stage = .delivering j ↔ j = i ∧ p'.deliveringBy x = true)
    (hother : ∀ y, y ≠ x →
      p'.claimedBy y = p.claimedBy y ∧ p'.deliveringBy y = p.deliveringBy y) :
    HandlersTraced handlers' (lives.set i ⟨d, p'⟩) := by
  constructor
  · intro y j
    by_cases hy : y = x
    · subst hy
      rw [hstage, if_pos rfl, isAt_move _ hlife, Option.some.injEq, hclaimed, ← h.claimed]
      by_cases hj : j = i
      · simp [hj]
      · simp [hj, (hold j hj).1]
    · rw [hstage, if_neg hy, isAt_move_of_eq hlife (hother y hy).1, h.claimed]
  · intro y j
    by_cases hy : y = x
    · subst hy
      rw [hstage, if_pos rfl, isAt_move _ hlife, Option.some.injEq, hdelivering, ← h.delivering]
      by_cases hj : j = i
      · simp [hj]
      · simp [hj, (hold j hj).2]
    · rw [hstage, if_neg hy, isAt_move_of_eq hlife (hother y hy).2, h.delivering]

/-! ## The pending requests -/

def AsyncTraced (asyncRequests : IcHashMap Nat Nat) (lives : List Life) : Prop :=
  ∀ k i, hashMapGet asyncRequests k = some i ↔ k = requestIdOf i ∧ IsAt Place.inAsync lives i

section

variable (h : AsyncTraced asyncRequests lives)
include h

theorem AsyncTraced.move (hlife : lives[i]? = some ⟨d, p⟩) (hasync : p'.inAsync = p.inAsync) :
    AsyncTraced asyncRequests (lives.set i ⟨d, p'⟩) :=
  fun k j => by rw [isAt_move_of_eq hlife hasync, h k j]

theorem AsyncTraced.spawn (d : UInt64) :
    AsyncTraced asyncRequests (lives ++ [⟨d, .preparing⟩]) :=
  fun k j => by rw [isAt_spawn rfl, h k j]

variable (hlife : lives[i]? = some ⟨d, p⟩)
include hlife

theorem AsyncTraced.get :
    hashMapGet asyncRequests (requestIdOf i) = if p.inAsync then some i else none := by
  split
  · rename_i hp
    exact (h _ i).mpr ⟨rfl, (isAt_iff hlife).mpr hp⟩
  · rename_i hp
    rw [Option.eq_none_iff_forall_ne_some]
    intro j hj
    obtain ⟨hid, hat⟩ := (h _ j).mp hj
    obtain rfl : i = j := by simpa [requestIdOf] using hid
    exact hp ((isAt_iff hlife).mp hat)

theorem AsyncTraced.delete (hp' : p'.inAsync = false) :
    AsyncTraced (hashMapDelete asyncRequests (requestIdOf i)).1 (lives.set i ⟨d, p'⟩) := by
  intro k j
  rw [hashMapGet_delete, isAt_move _ hlife]
  by_cases hj : j = i
  · subst hj
    simp only [if_true, hp', Bool.false_eq_true, and_false, iff_false]
    split
    · simp
    · rename_i hk
      exact fun hget => hk ((h k j).mp hget).1
  · split
    · rename_i hk
      subst hk
      simp [requestIdOf, Ne.symm hj]
    · exact h k j

theorem AsyncTraced.put (hp : p.inAsync = false) (hp' : p'.inAsync = true) :
    AsyncTraced (hashMapPut asyncRequests (requestIdOf i) i).1 (lives.set i ⟨d, p'⟩) := by
  have hfree : hashMapGet asyncRequests (requestIdOf i) = none := by
    rw [h.get hlife, hp]
    rfl
  intro k j
  rw [hashMapGet_put hfree, isAt_move _ hlife]
  by_cases hj : j = i
  · subst hj
    simp only [if_true, hp', and_true]
    split
    · simp [‹k = _›]
    · rename_i hk
      exact ⟨fun hget => ((h k j).mp hget).1, fun hk' => absurd hk' hk⟩
  · split
    · rename_i hk
      subst hk
      simp [requestIdOf, Ne.symm hj]
    · exact h k j

end

/-! ## One request of a device at a time -/

def Single (lives : List Life) : Prop := ∀ d, tally d Place.active lives ≤ 1

section

variable (h : Single lives) (hlife : lives[i]? = some ⟨d, p⟩)
include h hlife

theorem Single.move (hactive : p'.active = true → p.active = true) :
    Single (lives.set i ⟨d, p'⟩) := by
  intro e
  have hle := h e
  have hmove := tally_move Place.active hlife p' e
  by_cases hp' : p'.active = true
  · simp only [hp', hactive hp'] at hmove
    omega
  · simp only [hp', Bool.false_eq_true, and_false, if_false] at hmove
    omega

theorem Single.finish : Single (lives.set i ⟨d, .done⟩) := by
  apply h.move hlife
  intro hactive
  cases hactive

theorem Single.take (hnone : tally d Place.active lives = 0) : Single (lives.set i ⟨d, p'⟩) := by
  intro e
  have hle := h e
  have hmove := tally_move Place.active hlife p' e
  by_cases he : d = e
  · rw [← he] at hmove hle ⊢
    split_ifs at hmove <;> omega
  · simp only [he, false_and, if_false] at hmove
    omega

end

theorem Single.spawn (h : Single lives) (d : UInt64) : Single (lives ++ [⟨d, .preparing⟩]) :=
  fun e => by rw [tally_spawn rfl]; exact h e

/-! ## The whole state -/

/-- The state is the one of requests that are where `lives` puts them. -/
structure Traced (s : ZhalState) (lives : List Life) : Prop where
  items : ItemsTraced s.items lives
  queues : QueuesTraced s.deviceQueues lives
  worker : WorkerTraced s.worker s.availableWork lives
  handlers : HandlersTraced s.handlers lives
  async : AsyncTraced s.asyncRequests lives
  single : Single lives

theorem traced_init : Traced zhalInit [] where
  items := ⟨rfl, by simp [zhalInit]⟩
  queues := ⟨by simp, by simp [zhalInit], by simp [zhalInit], by simp [zhalInit]⟩
  worker := ⟨by simp [zhalInit], by simp [zhalInit, IsAt, HasAt], fun _ => rfl,
    by simp [zhalInit], by simp [zhalInit], by simp [zhalInit, IsAt, HasAt],
    by simp [zhalInit, IsAt, HasAt]⟩
  handlers := ⟨by simp [zhalInit, stageOf, IsAt, HasAt], by simp [zhalInit, stageOf, IsAt, HasAt]⟩
  async := by simp [AsyncTraced, zhalInit, IsAt, HasAt]
  single := by simp [Single, tally]

end ZilkerSdk.Zhal
