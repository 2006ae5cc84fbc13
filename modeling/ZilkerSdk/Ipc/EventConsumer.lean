import Mathlib.Data.List.Perm.Subperm
import ZilkerSdk.Lib.Run
import ZilkerSdk.Types.LinkedList

/-!
# Listening for events

Model of `libs/ipc/c/src/eventConsumer.c`: `startEventListener`, `stopEventListener` and what
becomes of an event.  The handlers of services are in a list, and the handler for the events of all
services is in a variable of its own.  The reader thread and the thread pool are started with the
first handler and stopped when the list is empty; `stopEventListener` never looks at the variable.

A call and the handling of an event are one step each: calls are made one after another and not
by handlers.  Calls of the transport and of the thread pool succeed, so a task that was added
runs.  An event that comes in while there is no reader is not seen.

`State.registered` is what the callers know: the handler that was started last for an id, and not
stopped since.
-/

namespace ZilkerSdk.Ipc.EventConsumer

open Lib Types List Function

/-! ## Adapters -/

/-- `EVENTCONSUMER_SUBSCRIBE_ALL` -/
def subscribeAll : UInt16 := 0xFFFF

structure EventAdapter (η : Type*) where
  serviceIdNum : UInt16
  handler : η

variable {η π : Type*}

def findAdapterById (serviceIdNum : UInt16) (worker : EventAdapter η) : Bool :=
  worker.serviceIdNum == serviceIdNum

/-- The variables of the module.  Of reader and pool only their being there matters. -/
structure Consumer (η : Type*) where
  adapterList : Option (IcLinkedList (EventAdapter η))
  subscribeAllAdapter : Option (EventAdapter η)
  eventThreadPool : Bool
  running : Bool
  /-- nodes that were allocated for the list -/
  allocated : Nat

/-- `linkedListFind` in the list of adapters, which may not be there. -/
def Consumer.find (consumer : Consumer η) (serviceIdNum : UInt16) : Option (EventAdapter η) :=
  consumer.adapterList.bind fun list => linkedListFind list (findAdapterById serviceIdNum)

/-! ## Calls -/

/-- The last part of `startEventListener`: the adapter is kept, and pool and reader are there. -/
def addAdapter (impl : EventAdapter η) (list : IcLinkedList (EventAdapter η))
    (consumer : Consumer η) : Consumer η :=
  if impl.serviceIdNum = subscribeAll then
    { consumer with
      adapterList := some list
      subscribeAllAdapter := some impl
      eventThreadPool := true
      running := true }
  else
    { consumer with
      adapterList := some (linkedListAppend list consumer.allocated impl)
      eventThreadPool := true
      running := true
      allocated := consumer.allocated + 1 }

def startEventListener (serviceIdNum : UInt16) (handler : η) (consumer : Consumer η) :
    Consumer η × Bool :=
  match consumer.adapterList with
  | some list =>
    if (linkedListFind list (findAdapterById serviceIdNum)).isSome then (consumer, false)
    else (addAdapter ⟨serviceIdNum, handler⟩ list consumer, true)
  | none => (addAdapter ⟨serviceIdNum, handler⟩ linkedListCreate consumer, true)

def internalShutdown (consumer : Consumer η) : Consumer η :=
  { consumer with running := false, eventThreadPool := false, adapterList := none }

def stopEventListener (serviceIdNum : UInt16) (consumer : Consumer η) : Consumer η :=
  match consumer.adapterList with
  | none => consumer
  | some list =>
    if linkedListCount (linkedListDelete list (findAdapterById serviceIdNum)).1 = 0 then
      internalShutdown consumer
    else
      { consumer with
        adapterList := some (linkedListDelete list (findAdapterById serviceIdNum)).1 }

/-! ## Events -/

/-- An event, with the code, the value and the text that handlers are given. -/
structure RawEvent (π : Type*) where
  sourceServiceId : UInt32
  content : π
  deriving DecidableEq

/-- The service that an event is from: `findAdapterById` reads 16 bits of the id. -/
def RawEvent.service (event : RawEvent π) : UInt16 := event.sourceServiceId.toUInt16

/-- `processRawJsonEvent` and `processRawEventTask`: the handlers that are
called, with the event. -/
def processRawJsonEvent (event : RawEvent π) (consumer : Consumer η) : List (η × RawEvent π) :=
  if consumer.eventThreadPool then
    ((consumer.find event.service).toList ++ consumer.subscribeAllAdapter.toList).map
      fun adapter => (adapter.handler, event)
  else []

/-- An event comes in; `eventReaderThread` reads it. -/
def receive (event : RawEvent π) (consumer : Consumer η) : List (η × RawEvent π) :=
  if consumer.running then processRawJsonEvent event consumer else []

/-! ## Histories -/

structure State (η : Type*) where
  consumer : Consumer η
  registered : UInt16 → Option η

def State.initial : State η := ⟨⟨none, none, false, false, 0⟩, fun _ => none⟩

/-- Who is to get an event: the handler of its service, and the handler for all. -/
def State.due (s : State η) (event : RawEvent π) : List (η × RawEvent π) :=
  ((if event.service = subscribeAll then none else s.registered event.service).toList ++
    (s.registered subscribeAll).toList).map fun handler => (handler, event)

inductive Operation (η π : Type*) where
  | start (serviceIdNum : UInt16) (handler : η)
  | stop (serviceIdNum : UInt16)
  | event (event : RawEvent π)

inductive Outcome (η π : Type*) where
  | started (ok : Bool)
  | stopped
  | handed (given due : List (η × RawEvent π))
  deriving DecidableEq

/-- An event was handed to those who are to get it, once each. -/
def Outcome.Right : Outcome η π → Prop
  | .handed given due => given.Perm due
  | _ => True

def step (s : State η) : Operation η π → Option (State η × Outcome η π)
  | .start serviceIdNum handler =>
    match startEventListener serviceIdNum handler s.consumer with
    | (consumer, true) =>
      some (⟨consumer, Function.update s.registered serviceIdNum (some handler)⟩, .started true)
    | (consumer, false) => some (⟨consumer, s.registered⟩, .started false)
  | .stop serviceIdNum =>
    some (⟨stopEventListener serviceIdNum s.consumer,
      Function.update s.registered serviceIdNum none⟩, .stopped)
  | .event event => some (s, .handed (receive event s.consumer) (s.due event))

/-! ## The list of adapters -/

/-- A list with at most one adapter for a service, and none for all. -/
structure Proper (list : IcLinkedList (EventAdapter η)) : Prop where
  counted : list.Counted
  nodup : (list.nodes.map fun n => n.item.serviceIdNum).Nodup
  single : ∀ n ∈ list.nodes, n.item.serviceIdNum ≠ subscribeAll

variable {list : IcLinkedList (EventAdapter η)} {id : UInt16} {handler : η} {o : Outcome η π}
  {op : Operation η π} {consumer : Consumer η}

theorem find_eq_none_iff :
    linkedListFind list (findAdapterById id) = none ↔
      id ∉ list.nodes.map fun n => n.item.serviceIdNum := by
  simp [linkedListFind, findAdapterById]

/-- There are so many services only, so the size of the list does not overflow. -/
theorem Proper.length_lt (h : Proper list) (hid : id ≠ subscribeAll)
    (hfree : linkedListFind list (findAdapterById id) = none) : list.nodes.length + 1 < 2 ^ 16 := by
  have hnodup : (id :: list.nodes.map fun n => n.item.serviceIdNum).Nodup :=
    nodup_cons.mpr ⟨find_eq_none_iff.mp hfree, h.nodup⟩
  have hbelow : ∀ i ∈ id :: list.nodes.map (fun n => n.item.serviceIdNum), i.toNat < 65535 := by
    intro i hi
    have hne : i ≠ subscribeAll := by
      obtain rfl | hi := mem_cons.mp hi
      · exact hid
      · obtain ⟨n, hn, rfl⟩ := mem_map.mp hi
        exact h.single n hn
    have hlt := i.toNat_lt
    have hnat : i.toNat ≠ 65535 := fun heq => hne (UInt16.toNat_inj.mp heq)
    omega
  have hsubset : (id :: list.nodes.map fun n => n.item.serviceIdNum).map UInt16.toNat ⊆
      range 65535 := by
    intro k hk
    obtain ⟨i, hi, rfl⟩ := mem_map.mp hk
    exact mem_range.mpr (hbelow i hi)
  have hlength := ((hnodup.map fun _ _ => UInt16.toNat_inj.mp).subperm hsubset).length_le
  simp only [length_map, length_cons, length_range] at hlength
  omega

theorem Proper.append (h : Proper list) {impl : EventAdapter η} (node : Nat)
    (hid : impl.serviceIdNum ≠ subscribeAll)
    (hfree : linkedListFind list (findAdapterById impl.serviceIdNum) = none) :
    Proper (linkedListAppend list node impl) where
  counted := h.counted.append node impl (h.length_lt hid hfree)
  nodup := by
    rw [nodes_linkedListAppend, map_append]
    refine List.Nodup.append h.nodup (nodup_singleton _) ?_
    intro i hi hnew
    rw [map_singleton, mem_singleton] at hnew
    rw [hnew] at hi
    exact find_eq_none_iff.mp hfree hi
  single := by
    intro n hn
    rw [nodes_linkedListAppend, mem_append, mem_singleton] at hn
    obtain hn | rfl := hn
    · exact h.single n hn
    · exact hid

theorem Proper.delete (h : Proper list) (id : UInt16) :
    Proper (linkedListDelete list (findAdapterById id)).1 where
  counted := h.counted.delete _
  nodup := by
    rw [nodes_linkedListDelete]
    exact h.nodup.sublist (eraseP_sublist.map _)
  single := by
    intro n hn
    rw [nodes_linkedListDelete] at hn
    exact h.single n (mem_of_mem_eraseP hn)

theorem find_append (list : IcLinkedList (EventAdapter η)) (node : Nat) (impl : EventAdapter η)
    (id : UInt16) (hfree : linkedListFind list (findAdapterById impl.serviceIdNum) = none) :
    linkedListFind (linkedListAppend list node impl) (findAdapterById id) =
      if id = impl.serviceIdNum then some impl else linkedListFind list (findAdapterById id) := by
  by_cases hid : id = impl.serviceIdNum
  · subst hid
    have hnone : list.nodes.find? (fun n => findAdapterById impl.serviceIdNum n.item) = none :=
      Option.map_eq_none_iff.mp hfree
    rw [if_pos rfl, linkedListFind, nodes_linkedListAppend, find?_append, hnone]
    simp [findAdapterById]
  · have hother : findAdapterById id impl = false := by
      simpa [findAdapterById] using fun heq => hid heq.symm
    rw [if_neg hid, linkedListFind, nodes_linkedListAppend, find?_append]
    simp [hother, linkedListFind]

theorem find?_eraseP {α : Type*} {p q : α → Bool} (h : ∀ a, q a = true → p a = false)
    (l : List α) : (l.eraseP p).find? q = l.find? q := by
  induction l with
  | nil => rfl
  | cons a l ih =>
    rw [eraseP_cons]
    cases hp : p a with
    | true =>
      have hq : q a = false := by
        cases hq : q a with
        | false => rfl
        | true => exact absurd (hp.symm.trans (h a hq)) (Ne.symm Bool.false_ne_true)
      simp [hq]
    | false => simp [find?_cons, ih]

theorem find_delete (h : Proper list) (id id' : UInt16) :
    linkedListFind (linkedListDelete list (findAdapterById id)).1 (findAdapterById id') =
      if id' = id then none else linkedListFind list (findAdapterById id') := by
  by_cases hid : id' = id
  · subst hid
    rw [if_pos rfl, find_eq_none_iff, nodes_linkedListDelete]
    have herase : (list.nodes.eraseP fun n => findAdapterById id' n.item).map
        (fun n => n.item.serviceIdNum) =
          (list.nodes.map fun n => n.item.serviceIdNum).erase id' := by
      rw [erase_eq_eraseP', eraseP_map]
      rfl
    rw [herase]
    exact h.nodup.not_mem_erase
  · have hdisjoint : ∀ n : ListNode (EventAdapter η), findAdapterById id' n.item = true →
        findAdapterById id n.item = false := by
      intro n hn
      have hn' : n.item.serviceIdNum = id' := by simpa [findAdapterById] using hn
      simpa [findAdapterById, hn'] using hid
    rw [if_neg hid, linkedListFind, nodes_linkedListDelete, find?_eraseP hdisjoint, linkedListFind]

/-! ## What every step keeps -/

/-- The list is what the callers know of the services, and the reader is there with it. -/
structure State.Kept (s : State η) : Prop where
  proper : ∀ list, s.consumer.adapterList = some list → Proper list
  services : ∀ id, id ≠ subscribeAll →
    s.registered id = (s.consumer.find id).map EventAdapter.handler
  pool : s.consumer.eventThreadPool = s.consumer.adapterList.isSome
  running : s.consumer.running = s.consumer.adapterList.isSome

theorem kept_initial : (State.initial : State η).Kept where
  proper _ h := absurd h (Option.some_ne_none _).symm
  services _ _ := rfl
  pool := rfl
  running := rfl

variable {s s' : State η}

theorem startEventListener_cases (id : UInt16) (handler : η) (consumer : Consumer η) :
    (startEventListener id handler consumer = (consumer, false) ∧ consumer.adapterList ≠ none) ∨
      ∃ list, startEventListener id handler consumer =
          (addAdapter ⟨id, handler⟩ list consumer, true) ∧
        (∀ id', consumer.find id' = linkedListFind list (findAdapterById id')) ∧
        consumer.find id = none ∧ (consumer.adapterList = some list ∨ list = linkedListCreate) := by
  unfold startEventListener Consumer.find
  cases hlist : consumer.adapterList with
  | none => exact .inr ⟨linkedListCreate, rfl, fun _ => rfl, rfl, .inr rfl⟩
  | some list =>
    cases hfind : linkedListFind list (findAdapterById id) with
    | some adapter => exact .inl ⟨by simp [hfind], Option.some_ne_none list⟩
    | none => exact .inr ⟨list, by simp [hfind], fun _ => rfl, hfind, .inl rfl⟩

theorem step_start_cases (h : step s (.start id handler) = some (s', o)) :
    (s' = s ∧ o = .started false) ∨
      ∃ list, s' = ⟨addAdapter ⟨id, handler⟩ list s.consumer,
          update s.registered id (some handler)⟩ ∧ o = .started true ∧
        (∀ id', s.consumer.find id' = linkedListFind list (findAdapterById id')) ∧
        s.consumer.find id = none ∧
        (s.consumer.adapterList = some list ∨ list = linkedListCreate) := by
  dsimp only [step] at h
  obtain ⟨hrefused, -⟩ | ⟨list, hadded, hlist⟩ := startEventListener_cases id handler s.consumer
  · rw [hrefused] at h
    cases h
    exact .inl ⟨rfl, rfl⟩
  · rw [hadded] at h
    cases h
    exact .inr ⟨list, rfl, rfl, hlist⟩

theorem State.Kept.start (h : s.Kept)
    (hfind : ∀ id', s.consumer.find id' = linkedListFind list (findAdapterById id'))
    (hfree : s.consumer.find id = none)
    (hlist : s.consumer.adapterList = some list ∨ list = linkedListCreate) :
    State.Kept ⟨addAdapter ⟨id, handler⟩ list s.consumer,
      update s.registered id (some handler)⟩ := by
  have hproper : Proper list := by
    obtain hlist | rfl := hlist
    · exact h.proper list hlist
    · exact ⟨counted_create, nodup_nil, nofun⟩
  rw [hfind] at hfree
  by_cases hid : id = subscribeAll
  · -- the handler for all is kept in its variable, and the list is as it was
    rw [addAdapter, if_pos hid]
    refine ⟨fun _ heq => Option.some.inj heq ▸ hproper, fun id' hid' => ?_, rfl, rfl⟩
    show update s.registered id (some handler) id' = Option.map _
      (linkedListFind list (findAdapterById id'))
    rw [update_of_ne (fun heq => hid' (heq.trans hid)), h.services id' hid', hfind]
  · rw [addAdapter, if_neg hid]
    refine ⟨fun _ heq => Option.some.inj heq ▸ hproper.append _ hid hfree, fun id' hid' => ?_, rfl,
      rfl⟩
    have happend := find_append list s.consumer.allocated ⟨id, handler⟩ id' hfree
    show update s.registered id (some handler) id' = Option.map _
      (linkedListFind (linkedListAppend list s.consumer.allocated ⟨id, handler⟩)
        (findAdapterById id'))
    rw [happend, update_apply]
    split
    · rfl
    · rw [h.services id' hid', hfind]

theorem State.Kept.stop (h : s.Kept) (id : UInt16) :
    State.Kept ⟨stopEventListener id s.consumer, update s.registered id none⟩ := by
  unfold stopEventListener
  cases hlist : s.consumer.adapterList with
  | none =>
    refine { h with services := fun id' hid' => ?_ }
    have hnone : s.consumer.find id' = none := by
      rw [Consumer.find, hlist]
      rfl
    show update s.registered id none id' = Option.map _ (s.consumer.find id')
    rw [update_apply, h.services id' hid', hnone]
    exact ite_self _
  | some list =>
    have hproper := h.proper list hlist
    -- what is found after the deletion is what the callers know
    have hservices : ∀ id', id' ≠ subscribeAll → update s.registered id none id' =
        (linkedListFind (linkedListDelete list (findAdapterById id)).1
          (findAdapterById id')).map EventAdapter.handler := by
      intro id' hid'
      rw [find_delete hproper, update_apply]
      split
      · rfl
      · rw [h.services id' hid', Consumer.find, hlist]
        rfl
    dsimp only
    split
    · -- the list is empty, so nobody is known for a service
      rename_i hcount
      refine ⟨fun _ heq => absurd heq (Option.some_ne_none _).symm, fun id' hid' => ?_, rfl, rfl⟩
      have hempty : (linkedListDelete list (findAdapterById id)).1.nodes = [] :=
        eq_nil_of_length_eq_zero ((hproper.delete id).counted.symm.trans hcount)
      have hnone := hservices id' hid'
      rw [linkedListFind, hempty] at hnone
      exact hnone
    · refine ⟨fun _ heq => Option.some.inj heq ▸ hproper.delete id, hservices, ?_, ?_⟩
      · rw [h.pool, hlist]
        rfl
      · rw [h.running, hlist]
        rfl

/-- The handler for all services, if it gets events. -/
def State.heard (s : State η) : Option η :=
  if s.consumer.adapterList.isSome then s.consumer.subscribeAllAdapter.map EventAdapter.handler
  else none

/-- An event goes to the handler of its service and to the one for all that gets events. -/
theorem State.Kept.receive_eq (h : s.Kept) (event : RawEvent π) :
    receive event s.consumer =
      ((if event.service = subscribeAll then none else s.registered event.service).toList ++
        s.heard.toList).map fun handler => (handler, event) := by
  unfold receive processRawJsonEvent State.heard
  rw [h.running, h.pool]
  have hservice : (if event.service = subscribeAll then none else s.registered event.service) =
      (s.consumer.find event.service).map EventAdapter.handler := by
    split
    · -- nothing in the list has the id of the handler for all
      rename_i hall
      cases hlist : s.consumer.adapterList with
      | none => rw [Consumer.find, hlist]; rfl
      | some list =>
        have hnone : linkedListFind list (findAdapterById event.service) = none := by
          rw [find_eq_none_iff, hall]
          intro hmem
          obtain ⟨n, hn, hid⟩ := mem_map.mp hmem
          exact (h.proper list hlist).single n hn hid
        rw [Consumer.find, hlist, Option.bind_some, hnone]
        rfl
    · rename_i hall
      exact h.services _ hall
  rw [hservice]
  cases hlist : s.consumer.adapterList with
  | none => rw [Consumer.find, hlist]; rfl
  | some list =>
    simp only [Option.isSome_some, if_true, map_append, Option.toList_map, map_map]
    rfl

/-- An event is handed to the wrong handlers if the handler for all is there for the one and not for
the other. -/
theorem State.Kept.not_right (h : s.Kept) (event : RawEvent π)
    (hdiffer : s.heard.isSome ≠ (s.registered subscribeAll).isSome) :
    ¬ (Outcome.handed (receive event s.consumer) (s.due event)).Right := by
  intro hperm
  have hlength := hperm.length_eq
  rw [h.receive_eq, State.due] at hlength
  apply hdiffer
  cases hheard : s.heard with
  | none => cases hall : s.registered subscribeAll with
    | none => rfl
    | some handler => simp [hheard, hall] at hlength
  | some handler => cases hall : s.registered subscribeAll with
    | none => simp [hheard, hall] at hlength
    | some handler' => rfl

theorem State.Kept.step (h : s.Kept) (hstep : EventConsumer.step s op = some (s', o)) :
    s'.Kept := by
  cases op with
  | start id handler =>
    obtain ⟨rfl, -⟩ | ⟨list, rfl, -, hfind, hfree, hlist⟩ := step_start_cases hstep
    · exact h
    · exact h.start hfind hfree hlist
  | stop id =>
    cases hstep
    exact h.stop id
  | event event =>
    cases hstep
    exact h

/-! ## The handler for all services -/

/-- The list has an adapter of another service. -/
def Consumer.servesOther (consumer : Consumer η) (id : UInt16) : Bool :=
  match consumer.adapterList with
  | none => false
  | some list => list.nodes.any fun n => n.item.serviceIdNum ≠ id

/-- While a handler for all services is registered it is not stopped, and neither is the last
handler of a service. -/
def KeepsAll (s : State η) : Operation η π → Prop
  | .stop id => s.registered subscribeAll = none ∨
    (id ≠ subscribeAll ∧ s.consumer.servesOther id = true)
  | _ => True

/-- The variable, too, is what the callers know, and it is not there without a reader. -/
structure State.Sound (s : State η) : Prop extends s.Kept where
  all : s.registered subscribeAll = s.consumer.subscribeAllAdapter.map EventAdapter.handler
  down : s.consumer.adapterList = none → s.registered subscribeAll = none

theorem sound_initial : (State.initial : State η).Sound :=
  ⟨kept_initial, rfl, fun _ => rfl⟩

theorem State.Sound.heard_eq (h : s.Sound) : s.heard = s.registered subscribeAll := by
  unfold State.heard
  split
  · exact h.all.symm
  · rename_i hnone
    exact (h.down (Option.not_isSome_iff_eq_none.mp hnone)).symm

theorem stopEventListener_last (hlist : consumer.adapterList = some list) (hproper : Proper list)
    (hother : consumer.servesOther id = false) :
    stopEventListener id consumer = internalShutdown consumer := by
  have hsame : ∀ n ∈ list.nodes, n.item.serviceIdNum = id := by
    simpa [Consumer.servesOther, hlist] using hother
  have hgone : id ∉ (linkedListDelete list (findAdapterById id)).1.nodes.map
      fun n => n.item.serviceIdNum := by
    rw [← find_eq_none_iff, find_delete hproper, if_pos rfl]
  have hempty : (linkedListDelete list (findAdapterById id)).1.nodes = [] := by
    apply eq_nil_iff_forall_not_mem.mpr
    intro n hn
    apply hgone
    have hold : n ∈ list.nodes := by
      rw [nodes_linkedListDelete] at hn
      exact mem_of_mem_eraseP hn
    exact mem_map.mpr ⟨n, hn, hsame n hold⟩
  have hcount : linkedListCount (linkedListDelete list (findAdapterById id)).1 = 0 := by
    rw [linkedListCount, (hproper.delete id).counted, hempty]
    rfl
  unfold stopEventListener
  rw [hlist]
  exact if_pos hcount

theorem adapterList_stop (hproper : ∀ list, consumer.adapterList = some list → Proper list)
    (hother : consumer.servesOther id = true) :
    (stopEventListener id consumer).adapterList ≠ none := by
  unfold Consumer.servesOther at hother
  unfold stopEventListener
  cases hlist : consumer.adapterList with
  | none => simp [hlist] at hother
  | some list =>
    rw [hlist] at hother
    obtain ⟨n, hn, hid⟩ := any_eq_true.mp hother
    have hkeeps : n ∈ (linkedListDelete list (findAdapterById id)).1.nodes := by
      rw [nodes_linkedListDelete, mem_eraseP_of_neg (by simpa [findAdapterById] using hid)]
      exact hn
    have hcount : linkedListCount (linkedListDelete list (findAdapterById id)).1 ≠ 0 := by
      rw [linkedListCount, ((hproper list hlist).delete id).counted]
      exact Nat.ne_of_gt (length_pos_of_mem hkeeps)
    dsimp only
    rw [if_neg hcount]
    exact Option.some_ne_none _

theorem subscribeAllAdapter_stop (id : UInt16) (consumer : Consumer η) :
    (stopEventListener id consumer).subscribeAllAdapter = consumer.subscribeAllAdapter := by
  unfold stopEventListener
  split
  · rfl
  · split <;> rfl

theorem State.Sound.start (h : s.Sound)
    (hkept : State.Kept ⟨addAdapter ⟨id, handler⟩ list s.consumer,
      update s.registered id (some handler)⟩) :
    State.Sound ⟨addAdapter ⟨id, handler⟩ list s.consumer,
      update s.registered id (some handler)⟩ := by
  by_cases hid : id = subscribeAll
  · subst hid
    exact ⟨hkept, update_self subscribeAll (some handler) s.registered, fun hnone => by cases hnone⟩
  · rw [addAdapter, if_neg hid] at hkept ⊢
    exact ⟨hkept, (update_of_ne (Ne.symm hid) ..).trans h.all, fun hnone => by cases hnone⟩

theorem State.Sound.stop (h : s.Sound) (hkeeps : s.registered subscribeAll = none ∨
      (id ≠ subscribeAll ∧ s.consumer.servesOther id = true)) :
    State.Sound ⟨stopEventListener id s.consumer, update s.registered id none⟩ := by
  have hkept := h.toKept.stop id
  obtain hnone | ⟨hid, hother⟩ := hkeeps
  · have hstill : update s.registered id none subscribeAll = none := by
      rw [update_apply, hnone, ite_self]
    refine ⟨hkept, ?_, fun _ => hstill⟩
    show update s.registered id none subscribeAll = _
    rw [hstill, subscribeAllAdapter_stop, ← h.all, hnone]
  · refine ⟨hkept, ?_, fun hgone => absurd hgone (adapterList_stop h.proper hother)⟩
    show update s.registered id none subscribeAll = _
    rw [update_of_ne (Ne.symm hid), subscribeAllAdapter_stop]
    exact h.all

/-- As long as the reader is kept for the handler for all, every event goes where it should. -/
theorem State.Sound.step (h : s.Sound) (hkeeps : KeepsAll s op)
    (hstep : EventConsumer.step s op = some (s', o)) : s'.Sound ∧ o.Right := by
  have hkept := h.toKept.step hstep
  cases op with
  | start id handler =>
    obtain ⟨rfl, rfl⟩ | ⟨list, rfl, rfl, -⟩ := step_start_cases hstep
    · exact ⟨h, trivial⟩
    · exact ⟨h.start hkept, trivial⟩
  | stop id =>
    cases hstep
    exact ⟨h.stop hkeeps, trivial⟩
  | event event =>
    cases hstep
    refine ⟨h, ?_⟩
    show (receive event s.consumer).Perm (s.due event)
    rw [h.toKept.receive_eq, State.due, h.heard_eq]

/-! ## When the condition is not met -/

/-- A handler is started for a service; if the handler for all was stopped before, it gets the next
event nevertheless. -/
theorem stopped_handler_called (h : s.Kept) (handler : η) (content : π)
    (hall : s.registered subscribeAll = none) (hstale : s.consumer.subscribeAllAdapter ≠ none) :
    ∃ s' os, run step s [.start 0 handler, .event ⟨0, content⟩] = some (s', os) ∧
      ∃ o ∈ os, ¬ Outcome.Right o := by
  have hzero : (0 : UInt16) ≠ subscribeAll := by decide
  -- the reader is there, and the variable and what the callers know of it are as before
  obtain ⟨s₁, o₁, hstep, hkept, hup, hvariable, hknown⟩ : ∃ s₁ o₁,
      step s (.start 0 handler : Operation η π) = some (s₁, o₁) ∧ s₁.Kept ∧
        s₁.consumer.adapterList.isSome = true ∧
        s₁.consumer.subscribeAllAdapter = s.consumer.subscribeAllAdapter ∧
        s₁.registered subscribeAll = s.registered subscribeAll := by
    obtain ⟨hrefused, hlist⟩ | ⟨list, hadded, hfind, hfree, hlist⟩ :=
      startEventListener_cases 0 handler s.consumer
    · refine ⟨s, .started false, ?_, h, Option.isSome_iff_ne_none.mpr hlist, rfl, rfl⟩
      simp only [step, hrefused]
    · have hstart : State.Kept ⟨addAdapter ⟨0, handler⟩ list s.consumer,
          update s.registered 0 (some handler)⟩ := h.start hfind hfree hlist
      refine ⟨_, .started true, ?_, hstart, ?_, ?_, ?_⟩
      · simp only [step, hadded]
      · rfl
      · rw [addAdapter, if_neg hzero]
      · exact update_of_ne (Ne.symm hzero) (some handler) s.registered
  refine ⟨s₁, _, run_cons_eq_some.mpr ⟨s₁, o₁, _, hstep, rfl, rfl⟩, _,
    mem_cons_of_mem _ mem_cons_self, ?_⟩
  apply hkept.not_right
  obtain ⟨adapter, hadapter⟩ := Option.ne_none_iff_exists'.mp hstale
  rw [hknown, hall, State.heard, if_pos hup, hvariable, hadapter]
  exact Ne.symm Bool.false_ne_true

/-- After a step that does not keep the reader for the handler for all, events can go wrong. -/
theorem State.Sound.goes_wrong (h : s.Sound) (hunkept : ¬ KeepsAll s op) (content : π) :
    ∃ more s' os, run EventConsumer.step s (op :: more) = some (s', os) ∧
      ∃ o ∈ os, ¬ Outcome.Right o := by
  cases op with
  | start | event => exact absurd trivial hunkept
  | stop id =>
    obtain ⟨hall, hlast⟩ := not_or.mp hunkept
    obtain ⟨handler, hhandler⟩ := Option.ne_none_iff_exists'.mp hall
    have hkept := h.toKept.stop id
    by_cases hid : id = subscribeAll
    · subst hid
      -- the adapter of `subscribeAll` survives its stop
      have hstale : (stopEventListener subscribeAll s.consumer).subscribeAllAdapter ≠ none := by
        rw [subscribeAllAdapter_stop]
        intro hnone
        apply hall
        rw [h.all, hnone]
        rfl
      have hknown : update s.registered subscribeAll none subscribeAll = none :=
        update_self ..
      obtain ⟨s', os, hrun, o, ho, hwrong⟩ :=
        stopped_handler_called hkept handler content hknown hstale
      exact ⟨_, s', _, run_cons_eq_some.mpr ⟨_, .stopped, os, rfl, hrun, rfl⟩, o,
        mem_cons_of_mem _ ho, hwrong⟩
    · -- the list becomes empty, and the reader ends
      have hother : s.consumer.servesOther id = false := by simpa [hid] using hlast
      obtain ⟨list, hlist⟩ := Option.ne_none_iff_exists'.mp fun hnone => hall (h.down hnone)
      refine ⟨[.event ⟨0, content⟩], _, _, run_cons_eq_some.mpr ⟨_, .stopped, _, rfl, rfl, rfl⟩, _,
        mem_cons_of_mem _ mem_cons_self, ?_⟩
      apply hkept.not_right
      have hknown : update s.registered id none subscribeAll = some handler := by
        rw [update_of_ne (Ne.symm hid), hhandler]
      rw [State.heard, stopEventListener_last hlist (h.proper list hlist) hother]
      show false ≠ (update s.registered id none subscribeAll).isSome
      rw [hknown]
      exact Bool.false_ne_true

/-! ## Histories of calls and events -/

/-- Events reach exactly the registered handlers as long as, while a handler for all services is
registered, it is not stopped and neither is the last handler of a service.  Once that happens, an
event that comes in later can go wrong. -/
theorem events_reach_handlers {ops : List (Operation η π)} {os : List (Outcome η π)}
    (hrun : run step State.initial ops = some (s, os))
    (hkeeps : Guarded step KeepsAll State.initial ops) :
    (∀ o ∈ os, o.Right) ∧
      ∀ op : Operation η π, ¬ KeepsAll s op → Nonempty π →
        ∃ more s' os', run step s (op :: more) = some (s', os') ∧ ∃ o ∈ os', ¬ Outcome.Right o := by
  obtain ⟨hsound, -, hright⟩ : s.Sound ∧ _ := by
    apply run_outputs (Q := fun _ o => o.Right) _ sound_initial hkeeps hrun
    intro s op s' o h hop hs'
    obtain ⟨hsound, hright⟩ := h.step hop hs'
    exact ⟨hsound, hright, fun _ ho' => ho'⟩
  refine ⟨hright, ?_⟩
  rintro op hunkept ⟨content⟩
  exact hsound.goes_wrong hunkept content

instance (s : State Nat) (op : Operation Nat Nat) : Decidable (KeepsAll s op) := by
  delta KeepsAll
  split <;> infer_instance

/-- Two services, one of which is stopped, and a handler for all. -/
def twoServices : List (Operation Nat Nat) :=
  [.start 5 50, .start subscribeAll 99, .event ⟨5, 1⟩, .start 6 60, .stop 5, .event ⟨5, 2⟩,
    .event ⟨6, 3⟩]

theorem events_reach_handlers_twoServices :
    ∃ s os, run step State.initial twoServices = some (s, os) ∧ ∀ o ∈ os, o.Right := by
  obtain ⟨⟨s, os⟩, hrun⟩ : ∃ r, run step State.initial twoServices = some r :=
    Option.isSome_iff_exists.mp (by decide +kernel)
  exact ⟨s, os, hrun, (events_reach_handlers hrun (by decide +kernel)).1⟩

/-- The handler for all is registered, and the last service is stopped. -/
def lastServiceStopped : List (Operation Nat Nat) :=
  [.start subscribeAll 99, .start 5 50, .stop 5, .event ⟨5, 1⟩]

/-- The handler for all is stopped while a service is registered. -/
def allStopped : List (Operation Nat Nat) :=
  [.start subscribeAll 99, .start 5 50, .stop subscribeAll, .event ⟨5, 1⟩]

/-- In the first history the event reaches nobody, and in the second it reaches a handler that was
stopped. -/
theorem event_misses_handler :
    (run step State.initial lastServiceStopped).map (·.2.getLast?) =
        some (some (.handed [] [(99, ⟨5, 1⟩)])) ∧
      (run step State.initial allStopped).map (·.2.getLast?) =
        some (some (.handed [(50, ⟨5, 1⟩), (99, ⟨5, 1⟩)] [(50, ⟨5, 1⟩)])) := by
  decide +kernel

end ZilkerSdk.Ipc.EventConsumer
