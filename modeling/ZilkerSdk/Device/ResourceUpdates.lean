import ZilkerSdk.Device.Database.Atomicity
import ZilkerSdk.Lib.Backlog

/-!
# Concurrent updates of a resource

Model of `updateResource` and `deviceServiceChangeResourceMode` in
`services/device/core/src/deviceService.c`, for any number of calls on one resource.  Each call
fetches a clone of the resource, changes it and saves it; the two calls of the database are locked
one by one, and the event about a new value is sent after the save with another lock.  A save
writes every field that can change, so a call that works on an old clone takes back what others
have saved in between.

The time, the outcome of a save to the storage, and whether an event finds its producer and its
endpoint are inputs.  The events that have been decided upon are numbered (`decisions` is not in the
source), and the state remembers the value in the last event and the mode that the last mode change
has saved.  The request of a backup after a save is left out, and so is the second lookup of
`deviceServiceChangeResourceMode`, which is for uris that do not lead to a resource.
-/

namespace ZilkerSdk.Device.ResourceUpdates

open Types Lib Device.Database Option

/-! ## The steps -/

/-- Where a call stands between its steps, with the clone it works on. -/
inductive Call where
  /-- `updateResource` has fetched the resource -/
  | updating (newValue : Option CString) (resource : IcDeviceResource)
  /-- `updateResource` is about to send an event -/
  | sending (resource : IcDeviceResource) (decision : Nat)
  /-- `deviceServiceChangeResourceMode` has fetched the resource -/
  | changing (newMode : UInt8) (resource : IcDeviceResource)
  | returned
deriving DecidableEq

structure ServiceState where
  db : JsonDatabase
  calls : List Call
  decisions : Nat
  /-- the value in the last event sent -/
  lastEvent : Option (Option CString)
  /-- the mode that the last completed mode change has saved -/
  lastMode : Option UInt8

/-- The beginning of a call, and the later steps of the call with a number. -/
inductive ServiceOp where
  | updateResource (newValue : Option CString)
  | saveValue (call : Nat) (now : UInt64) (saved : Bool)
  | sendEvent (call : Nat) (sent : Bool)
  | changeResourceMode (newMode : UInt8)
  | saveMode (call : Nat) (saved : Bool)
deriving DecidableEq

/-- The part of `updateResource` between the fetch and the event: the database, the clone and
whether to send an event about it. -/
def saveValue (db : JsonDatabase) (newValue : Option CString) (resource : IcDeviceResource)
    (now : UInt64) (saved : Bool) : Option (JsonDatabase × IcDeviceResource × Bool) :=
  if resource.cachingPolicy = .never ∧ resource.mode &&& resourceModeEmitEvents ≠ 0 then
    -- there is no previous value to compare with
    some (db, { resource with value := newValue }, true)
  else if resource.value ≠ newValue then do
    let resource := { resource with value := newValue, dateOfLastSyncMillis := now }
    let (db, _) ← jsonDatabaseSaveResource db (some resource) saved
    some (db, resource, resource.mode &&& resourceModeEmitEvents ≠ 0)
  else do
    let (db, _) ← jsonDatabaseUpdateDateOfLastSyncMillis db (some resource) now
    some (db, resource, false)

/-- The mode `deviceServiceChangeResourceMode` gives a resource: the sensitive bit is not
removed. -/
def changedMode (mode newMode : UInt8) : UInt8 :=
  if mode &&& resourceModeSensitive ≠ 0 ∧ newMode &&& resourceModeSensitive = 0 then
    newMode ||| resourceModeSensitive
  else newMode

variable (uri : CString)

def ServiceState.moveTo (s : ServiceState) (i : Nat) (call : Call) : ServiceState :=
  { s with calls := s.calls.set i call }

def serviceStep (s : ServiceState) : ServiceOp → Option (ServiceState × Unit)
  | .updateResource newValue => do
    let resource ← jsonDatabaseGetResourceByUri s.db (some uri)
    let call := match resource with
      | none => .returned
      | some resource => .updating newValue resource
    some ({ s with calls := s.calls ++ [call] }, ())
  | .saveValue i now saved =>
    match s.calls[i]? with
    | some (.updating newValue resource) => do
      let (db, resource, sendEvent) ← saveValue s.db newValue resource now saved
      if sendEvent then
        some ({ s.moveTo i (.sending resource (s.decisions + 1)) with
          db := db
          decisions := s.decisions + 1 }, ())
      else some ({ s.moveTo i .returned with db := db }, ())
    | _ => none
  | .sendEvent i sent =>
    match s.calls[i]? with
    | some (.sending resource _) =>
      some ({ s.moveTo i .returned with
        lastEvent := if sent then some resource.value else s.lastEvent }, ())
    | _ => none
  | .changeResourceMode newMode => do
    let resource ← jsonDatabaseGetResourceByUri s.db (some uri)
    let call := match resource with
      | none => .returned
      | some resource => .changing newMode resource
    some ({ s with calls := s.calls ++ [call] }, ())
  | .saveMode i saved =>
    match s.calls[i]? with
    | some (.changing newMode resource) => do
      let resource := { resource with mode := changedMode resource.mode newMode }
      let (db, _) ← jsonDatabaseSaveResource s.db (some resource) saved
      some ({ s.moveTo i .returned with db := db, lastMode := some resource.mode }, ())
    | _ => none

/-! ## Modes -/

def Sensitive (mode : UInt8) : Prop := mode &&& resourceModeSensitive ≠ 0

def EmitsEvents (mode : UInt8) : Prop := mode &&& resourceModeEmitEvents ≠ 0

instance (mode : UInt8) : Decidable (Sensitive mode) := inferInstanceAs (Decidable (_ ≠ _))

instance (mode : UInt8) : Decidable (EmitsEvents mode) := inferInstanceAs (Decidable (_ ≠ _))

/-- The mode apart from the bit for lazy saves. -/
def withoutLazySave (mode : UInt8) : UInt8 := mode &&& ~~~resourceModeLazySaveNext

theorem and_withoutLazySave (mode bit : UInt8) (h : ~~~resourceModeLazySaveNext &&& bit = bit) :
    withoutLazySave mode &&& bit = mode &&& bit := by
  rw [withoutLazySave, UInt8.and_assoc, h]

variable {mode mode' newMode : UInt8} {entry : DeviceCacheEntry} {ok saved : Bool} {now : UInt64}
  {call : Call} {r' : IcDeviceResource} {o : Unit}

theorem sensitive_congr (h : withoutLazySave mode = withoutLazySave mode') :
    Sensitive mode ↔ Sensitive mode' := by
  unfold Sensitive
  rw [← and_withoutLazySave mode _ (by decide), h, and_withoutLazySave mode' _ (by decide)]

theorem emitsEvents_congr (h : withoutLazySave mode = withoutLazySave mode') :
    EmitsEvents mode ↔ EmitsEvents mode' := by
  unfold EmitsEvents
  rw [← and_withoutLazySave mode _ (by decide), h, and_withoutLazySave mode' _ (by decide)]

theorem or_and_distrib (mode bit mask : UInt8) :
    (mode ||| bit) &&& mask = mode &&& mask ||| bit &&& mask := by
  apply UInt8.toBitVec_inj.mp
  exact BitVec.and_or_distrib_right

theorem sensitive_or (mode : UInt8) : Sensitive (mode ||| resourceModeSensitive) := by
  unfold Sensitive
  rw [or_and_distrib, ne_eq, UInt8.or_eq_zero_iff]
  exact fun h => absurd h.2 (by decide)

/-- A mode change never removes the sensitive bit of the resource it was made from. -/
theorem sensitive_changedMode (h : Sensitive mode ∨ Sensitive newMode) :
    Sensitive (changedMode mode newMode) := by
  unfold changedMode
  split
  · exact sensitive_or newMode
  · rename_i hkept
    rcases h with h | h
    · exact fun hnew => hkept ⟨h, hnew⟩
    · exact h

theorem emitsEvents_changedMode (h : EmitsEvents newMode) :
    EmitsEvents (changedMode mode newMode) := by
  unfold changedMode
  split
  · have hbits : resourceModeSensitive &&& resourceModeEmitEvents = 0 := by decide
    unfold EmitsEvents
    rw [or_and_distrib, hbits, UInt8.or_zero]
    exact h
  · exact h

/-! ## The resource in the database -/

variable {uri} {db db' : JsonDatabase} {k : Key} {endpoint : Option Nat} {j : Nat}
  {r x : IcDeviceResource} {f : IcDeviceResource → IcDeviceResource}

theorem jsonDatabaseGetResourceByUri_eq_some
    (h : jsonDatabaseGetResourceByUri db (some uri) = some (some r)) : ∃ k endpoint j,
      hashMapGet db.resourcesByUri (stringKey uri) = some (.resource k endpoint j) ∧
      derefResource db k endpoint j = some r := by
  cases hloc : hashMapGet db.resourcesByUri (stringKey uri) with
  | none => simp [jsonDatabaseGetResourceByUri, answer, hloc] at h
  | some l =>
    cases l with
    | resource k endpoint j =>
      cases hderef : derefResource db k endpoint j with
      | none => simp [jsonDatabaseGetResourceByUri, answer, hloc, hderef] at h
      | some r' =>
        obtain rfl : r' = r := by simpa [jsonDatabaseGetResourceByUri, answer, hloc, hderef] using h
        exact ⟨k, endpoint, j, rfl, hderef⟩
    | device | endpoint | metadata => simp [jsonDatabaseGetResourceByUri, answer, hloc] at h

theorem derefResource_replaced {dirty : Bool}
    (h : Replaced db db' k entry (withResource endpoint j f entry.device) dirty)
    (hr : derefResource db k endpoint j = some r) :
    derefResource db' k endpoint j = some (f r) := by
  have hentry' : hashMapGet db'.devices k =
      some { entry with device := withResource endpoint j f entry.device, dirty := dirty } := by
    rw [h.lookup, if_pos rfl]
  cases endpoint with
  | none =>
    simp only [derefResource, h.found, bind_eq_bind, bind_some] at hr
    simp [derefResource, hentry', withResource, hr]
  | some i =>
    simp only [derefResource, derefEndpoint, h.found, bind_eq_bind, bind_some] at hr
    split at hr
    · cases hr
    · rename_i halive
      obtain ⟨e, he, hr⟩ := bind_eq_some_iff.mp hr
      simp [derefResource, derefEndpoint, hentry', halive, withResource, withEndpoint, he, hr]

theorem lookup_updated
    (hloc : hashMapGet db.resourcesByUri (stringKey uri) = some (.resource k endpoint j))
    (hr : derefResource db k endpoint j = some r) (hidx : db'.resourcesByUri = db.resourcesByUri)
    (hupd : Updated db db' k entry (withResource endpoint j f entry.device)) :
    jsonDatabaseGetResourceByUri db' (some uri) = some (some (f r)) := by
  have hr' : derefResource db' k endpoint j = some (f r) :=
    hupd.elim (derefResource_replaced ·.1 hr) (derefResource_replaced ·.1 hr)
  simp [jsonDatabaseGetResourceByUri, answer, hidx, hloc, hr']

section

variable (hr : jsonDatabaseGetResourceByUri db (some uri) = some (some r)) (huri : x.uri = some uri)
include hr huri

theorem lookup_saveResource (h : jsonDatabaseSaveResource db (some x) saved = some (db', ok)) :
    jsonDatabaseGetResourceByUri db' (some uri) = some (some (savedResource x r)) := by
  obtain ⟨k, endpoint, j, hloc, hr⟩ := jsonDatabaseGetResourceByUri_eq_some hr
  obtain ⟨hidx, entry, hupd⟩ := jsonDatabaseSaveResource_effect huri hloc h
  exact lookup_updated hloc hr hidx hupd

theorem lookup_updateDateOfLastSyncMillis
    (h : jsonDatabaseUpdateDateOfLastSyncMillis db (some x) now = some (db', ok)) :
    jsonDatabaseGetResourceByUri db' (some uri) = some (some (syncedResource now r)) := by
  obtain ⟨k, endpoint, j, hloc, hr⟩ := jsonDatabaseGetResourceByUri_eq_some hr
  obtain ⟨hidx, entry, hupd⟩ := jsonDatabaseUpdateDateOfLastSyncMillis_effect huri hloc h
  exact lookup_updated hloc hr hidx hupd

end

/-! ## Condition on a step -/

/-- The event that a call has still to send. -/
def pending : Call → Option Nat
  | .sending _ decision => some decision
  | _ => none

/-- The clone that a call has still to save. -/
def clone : Call → Option IcDeviceResource
  | .updating _ resource => some resource
  | .changing _ resource => some resource
  | _ => none

/-- The resource that a lookup finds now. -/
def storedResource (uri : CString) (s : ServiceState) : Option IcDeviceResource :=
  (jsonDatabaseGetResourceByUri s.db (some uri)).join

/-- What the next step of the call writes back has not been changed since it was fetched:

* a new value is saved with a mode that is still that of the stored resource;
* a new mode is saved with a value that is still the stored one, does not remove a sensitive bit,
  and leaves the resource one that emits events;
* the event for the newest value is not sent before those for older ones. -/
def FreshCall (uri : CString) (s : ServiceState) : Call → Prop
  | .updating newValue resource => resource.value ≠ newValue →
      ∀ r ∈ storedResource uri s, withoutLazySave resource.mode = withoutLazySave r.mode
  | .changing newMode resource => EmitsEvents newMode ∧ ∀ r ∈ storedResource uri s,
      resource.value = r.value ∧ (Sensitive r.mode → Sensitive resource.mode ∨ Sensitive newMode)
  | .sending _ decision => InTurn pending s.decisions s.calls decision
  | .returned => True

/-- A step of a call that is fresh; and an event is not dropped. -/
def Fresh (uri : CString) (s : ServiceState) : ServiceOp → Prop
  | .saveValue i _ _ => ∀ call ∈ s.calls[i]?, FreshCall uri s call
  | .saveMode i _ => ∀ call ∈ s.calls[i]?, FreshCall uri s call
  | .sendEvent i sent => sent = true ∧ ∀ call ∈ s.calls[i]?, FreshCall uri s call
  | .updateResource _ | .changeResourceMode _ => True

instance (uri : CString) (s : ServiceState) (call : Call) : Decidable (FreshCall uri s call) := by
  delta FreshCall
  split <;> infer_instance

instance (uri : CString) (s : ServiceState) (op : ServiceOp) : Decidable (Fresh uri s op) := by
  delta Fresh
  split <;> infer_instance

/-! ## The invariant -/

/-- The resource `r` is stored; every clone is one of this resource, the last mode change is what
is stored, and once no event is waiting the last event is about what is stored. -/
structure ResourceInv (uri : CString) (s : ServiceState) (r : IcDeviceResource) : Prop where
  stored : jsonDatabaseGetResourceByUri s.db (some uri) = some (some r)
  named : r.uri = some uri
  cached : r.cachingPolicy = .always
  emits : EmitsEvents r.mode
  clones : EachAt (fun _ call => ∀ x, clone call = some x →
    x.uri = some uri ∧ x.cachingPolicy = .always) s.calls
  modeKept : ∀ mode, s.lastMode = some mode → withoutLazySave mode = withoutLazySave r.mode
  current : EachAt (fun _ call => ∀ x, call = .sending x s.decisions → x.value = r.value) s.calls
  events : Backlog pending s.decisions (∀ v, s.lastEvent = some v → v = r.value) s.calls

variable {s s' : ServiceState} {i : Nat}

section

variable (h : ResourceInv uri s r)
include h

theorem ResourceInv.storedResource_eq : storedResource uri s = some r := by
  rw [storedResource, h.stored]
  rfl

theorem ResourceInv.fetch (hclone : clone call = some r) :
    ResourceInv uri { s with calls := s.calls ++ [call] } r where
  __ := h
  clones := h.clones.spawn fun x hx => by
    cases hclone.symm.trans hx
    exact ⟨h.named, h.cached⟩
  current := h.current.spawn fun x hx => by
    rw [hx] at hclone
    cases hclone
  events := h.events.spawn (by cases call <;> first | rfl | cases hclone)

theorem ResourceInv.returnSaved (hcall : s.calls[i]? = some call) (hidle : pending call = none)
    {db' : JsonDatabase} {lastMode' : Option UInt8}
    (hstored : jsonDatabaseGetResourceByUri db' (some uri) = some (some r'))
    (hnamed : r'.uri = some uri) (hcached : r'.cachingPolicy = .always)
    (hemits : EmitsEvents r'.mode) (hvalue : r'.value = r.value)
    (hmode : ∀ mode, lastMode' = some mode → withoutLazySave mode = withoutLazySave r'.mode) :
    ResourceInv uri { s.moveTo i .returned with db := db', lastMode := lastMode' } r' where
  stored := hstored
  named := hnamed
  cached := hcached
  emits := hemits
  clones := h.clones.update hcall fun x hx => by cases hx
  modeKept := hmode
  current := by
    rw [hvalue]
    exact h.current.update hcall fun x hx => by cases hx
  events := by
    rw [hvalue]
    exact h.events.keep hcall hidle.symm

theorem ResourceInv.sendEvent {decision : Nat} (hcall : s.calls[i]? = some (.sending x decision))
    (hturn : InTurn pending s.decisions s.calls decision) :
    ResourceInv uri { s.moveTo i .returned with lastEvent := some x.value } r where
  __ := h
  clones := h.clones.update hcall fun x hx => by cases hx
  current := h.current.update hcall fun x hx => by cases hx
  events := by
    refine h.events.carryOut hcall rfl rfl hturn fun hnewest v hv => ?_
    cases hv
    exact h.current i _ hcall x (by rw [hnewest])

/-! ## One step -/

theorem saveValue_resourceInv {newValue : Option CString}
    (hcall : s.calls[i]? = some (.updating newValue x))
    (hfresh : x.value ≠ newValue → withoutLazySave x.mode = withoutLazySave r.mode)
    (hstep : serviceStep uri s (.saveValue i now saved) = some (s', o)) :
    ∃ r', ResourceInv uri s' r' ∧ withoutLazySave r'.mode = withoutLazySave r.mode := by
  obtain ⟨hxuri, hxcached⟩ := h.clones i _ hcall x rfl
  simp only [serviceStep, hcall, saveValue, hxcached, reduceCtorEq, false_and, if_false] at hstep
  split at hstep
  · -- the value has changed: it is saved, and the resource emits an event
    rename_i hchanged
    have hmode := hfresh hchanged
    have hxemits : x.mode &&& resourceModeEmitEvents ≠ 0 := (emitsEvents_congr hmode).mpr h.emits
    simp only [bind_eq_bind, bind_eq_some_iff, bind_assoc, bind_some] at hstep
    obtain ⟨⟨db', ok⟩, hsave, hstep⟩ := hstep
    simp only [hxemits, ne_eq, not_false_eq_true, decide_true, if_true, some.injEq,
      Prod.mk.injEq, and_true] at hstep
    subst hstep
    refine ⟨_, ⟨lookup_saveResource h.stored ?_ hsave, h.named, rfl, hxemits,
      h.clones.update hcall (fun x hx => by cases hx),
      fun mode hlast => (h.modeKept mode hlast).trans hmode.symm, ?_,
      h.events.decide hcall rfl⟩, hmode⟩
    · exact hxuri
    · refine EachAt.update (fun k call hk y hy => ?_) hcall fun y hy => ?_
      -- the events that were waiting have smaller numbers
      · exact absurd (congrArg pending hy) (h.events.ne_new hk)
      · obtain ⟨rfl, -⟩ := Call.sending.inj hy
        rfl
  · -- only the date of the last synchronisation changes
    simp only [bind_eq_bind, bind_eq_some_iff, bind_assoc,
      bind_some, Bool.false_eq_true, if_false, some.injEq, Prod.mk.injEq,
      and_true] at hstep
    obtain ⟨⟨db', ok⟩, hsave, rfl⟩ := hstep
    have hlookup := lookup_updateDateOfLastSyncMillis h.stored hxuri hsave
    exact ⟨_, h.returnSaved hcall rfl hlookup h.named h.cached h.emits rfl h.modeKept, rfl⟩

theorem saveMode_resourceInv (hcall : s.calls[i]? = some (.changing newMode x))
    (hemits : EmitsEvents newMode) (hvalue : x.value = r.value)
    (hstep : serviceStep uri s (.saveMode i saved) = some (s', o)) :
    ∃ r', ResourceInv uri s' r' ∧ r'.mode = changedMode x.mode newMode := by
  obtain ⟨hxuri, hxcached⟩ := h.clones i _ hcall x rfl
  simp only [serviceStep, hcall, bind_eq_bind, bind_eq_some_iff, some.injEq,
    Prod.mk.injEq, and_true] at hstep
  obtain ⟨⟨db', ok⟩, hsave, rfl⟩ := hstep
  refine ⟨_, h.returnSaved hcall rfl (lookup_saveResource h.stored ?_ hsave) h.named hxcached ?_
    hvalue ?_, rfl⟩
  · exact hxuri
  · exact emitsEvents_changedMode hemits
  · intro mode hlast
    rw [← some.inj hlast]
    rfl

/-- Every fresh step keeps the invariant, and a sensitive resource stays sensitive. -/
theorem serviceStep_resourceInv {op : ServiceOp} (hfresh : Fresh uri s op)
    (hstep : serviceStep uri s op = some (s', o)) :
    ∃ r', ResourceInv uri s' r' ∧ (Sensitive r.mode → Sensitive r'.mode) := by
  cases op with
  | updateResource | changeResourceMode =>
    simp only [serviceStep, h.stored, bind_eq_bind, bind_some, some.injEq,
      Prod.mk.injEq, and_true] at hstep
    subst hstep
    exact ⟨r, h.fetch rfl, id⟩
  | saveValue i now saved =>
    have hcalls := hstep
    simp only [serviceStep] at hcalls
    split at hcalls
    · rename_i hcall
      obtain ⟨r', hinv, hmode⟩ := saveValue_resourceInv h hcall
        (fun hchanged => hfresh _ hcall hchanged r h.storedResource_eq) hstep
      exact ⟨r', hinv, (sensitive_congr hmode).mpr⟩
    · cases hcalls
  | sendEvent i sent =>
    simp only [serviceStep] at hstep
    split at hstep
    · rename_i x decision hcall
      -- the event is sent, and not before those for older values
      obtain ⟨rfl, hturn⟩ := hfresh
      simp only [if_true, some.injEq, Prod.mk.injEq, and_true] at hstep
      subst hstep
      exact ⟨r, h.sendEvent hcall (hturn _ hcall), id⟩
    · cases hstep
  | saveMode i saved =>
    have hcalls := hstep
    simp only [serviceStep] at hcalls
    split at hcalls
    · rename_i hcall
      obtain ⟨hemits, hsame⟩ := hfresh _ hcall
      obtain ⟨hvalue, hsensitive⟩ := hsame r h.storedResource_eq
      obtain ⟨r', hinv, hmode⟩ := saveMode_resourceInv h hcall hemits hvalue hstep
      refine ⟨r', hinv, fun hr => ?_⟩
      rw [hmode]
      exact sensitive_changedMode (hsensitive hr)
    · cases hcalls

end

/-! ## Every run -/

/-- A stored resource that is always cached and emits events, before any call. -/
structure Ready (uri : CString) (s : ServiceState) (r : IcDeviceResource) : Prop where
  stored : jsonDatabaseGetResourceByUri s.db (some uri) = some (some r)
  named : r.uri = some uri
  cached : r.cachingPolicy = .always
  emits : EmitsEvents r.mode
  noCalls : s.calls = []
  noEvent : s.lastEvent = none
  noMode : s.lastMode = none

theorem Ready.resourceInv (h : Ready uri s r) : ResourceInv uri s r where
  __ := h
  clones := by
    rw [h.noCalls]
    exact eachAt_nil
  modeKept mode hlast := by
    rw [h.noMode] at hlast
    cases hlast
  current := by
    rw [h.noCalls]
    exact eachAt_nil
  events := by
    rw [h.noCalls]
    apply backlog_nil
    intro v hv
    rw [h.noEvent] at hv
    cases hv

/-- No update of the resource `r` has been lost. -/
structure UpdatesKept (s : ServiceState) (r : IcDeviceResource) : Prop where
  mode : ∀ mode, s.lastMode = some mode → withoutLazySave mode = withoutLazySave r.mode
  event : (∀ call ∈ s.calls, call = .returned) → ∀ v, s.lastEvent = some v → v = r.value

theorem ResourceInv.updatesKept (h : ResourceInv uri s r) : UpdatesKept s r where
  mode := h.modeKept
  event hreturned := h.events.idle fun call hcall => by rw [hreturned call hcall]; rfl

theorem run_resourceInv (h : ResourceInv uri s r) {ops : List ServiceOp} {os : List Unit}
    (hfresh : Guarded (serviceStep uri) (Fresh uri) s ops)
    (hrun : run (serviceStep uri) s ops = some (s', os)) :
    ∃ r', ResourceInv uri s' r' ∧ (Sensitive r.mode → Sensitive r'.mode) := by
  apply run_invariant _ ⟨r, h, id⟩ hfresh hrun
  rintro s op s' o ⟨x, hx, hsensitive⟩ hop hs
  obtain ⟨x', hx', hsensitive'⟩ := serviceStep_resourceInv hx hop hs
  exact ⟨x', hx', hsensitive' ∘ hsensitive⟩

/-- In every run of fresh steps, and in every continuation of it by fresh steps, the resource is
stored with all updates, and it is sensitive if it was before. -/
theorem updates_kept_of_fresh (uri : CString) (s s₁ s₂ : ServiceState) (r : IcDeviceResource)
    (ops₁ ops₂ : List ServiceOp) (os₁ os₂ : List Unit) (hready : Ready uri s r)
    (hfresh₁ : Guarded (serviceStep uri) (Fresh uri) s ops₁)
    (hrun₁ : run (serviceStep uri) s ops₁ = some (s₁, os₁))
    (hfresh₂ : Guarded (serviceStep uri) (Fresh uri) s₁ ops₂)
    (hrun₂ : run (serviceStep uri) s₁ ops₂ = some (s₂, os₂)) :
    ∃ r₁ r₂, jsonDatabaseGetResourceByUri s₁.db (some uri) = some (some r₁) ∧
      jsonDatabaseGetResourceByUri s₂.db (some uri) = some (some r₂) ∧
      (Sensitive r₁.mode → Sensitive r₂.mode) ∧ UpdatesKept s₂ r₂ := by
  obtain ⟨r₁, h₁, -⟩ := run_resourceInv hready.resourceInv hfresh₁ hrun₁
  obtain ⟨r₂, h₂, hsensitive⟩ := run_resourceInv h₁ hfresh₂ hrun₂
  exact ⟨r₁, r₂, h₁.stored, h₂.stored, hsensitive, h₂.updatesKept⟩

/-! ## A lamp -/

def lampUri : CString := "/lamp/r/color".toList

def lampColor (mode : UInt8) : IcDeviceResource where
  id := some "color".toList
  uri := some lampUri
  endpointId := none
  deviceUuid := some "lamp".toList
  value := some "red".toList
  type := some "com.icontrol.string".toList
  mode := mode
  cachingPolicy := .always
  dateOfLastSyncMillis := 0

def lamp (mode : UInt8) : IcDevice where
  uuid := some "lamp".toList
  deviceClass := some "light".toList
  deviceClassVersion := 1
  uri := some "/lamp".toList
  managingDeviceDriver := some "driver".toList
  endpoints := []
  resources := [lampColor mode]
  metadata := []

/-- A lamp whose color has the given mode, and no call. -/
def lampStart (mode : UInt8) : ServiceState where
  db := ((jsonDatabaseAddDevice (emptyDatabase true) (some (lamp mode)) true).map Prod.fst).getD
    (emptyDatabase true)
  calls := []
  decisions := 0
  lastEvent := none
  lastMode := none

def observableMode : UInt8 := resourceModeReadable ||| resourceModeEmitEvents

def sensitiveMode : UInt8 := observableMode ||| resourceModeSensitive

/-- Two overlapping updates whose events are sent in turn, then a mode change and another
update. -/
def freshRun : List ServiceOp :=
  [.updateResource (some "green".toList), .updateResource (some "blue".toList),
    .saveValue 0 1 true, .saveValue 1 2 false, .sendEvent 0 true, .sendEvent 1 true,
    .changeResourceMode observableMode, .saveMode 2 true, .updateResource none,
    .saveValue 3 3 true, .sendEvent 3 true]

theorem updates_kept_freshRun : ∃ s os,
    run (serviceStep lampUri) (lampStart sensitiveMode) freshRun = some (s, os) ∧
      ∃ r₁ r₂, jsonDatabaseGetResourceByUri (lampStart sensitiveMode).db (some lampUri) =
          some (some r₁) ∧
        jsonDatabaseGetResourceByUri s.db (some lampUri) = some (some r₂) ∧
        (Sensitive r₁.mode → Sensitive r₂.mode) ∧ UpdatesKept s r₂ := by
  have hsome : (run (serviceStep lampUri) (lampStart sensitiveMode) freshRun).isSome := by
    decide +kernel
  obtain ⟨⟨s, os⟩, hrun⟩ := isSome_iff_exists.mp hsome
  have hready : Ready lampUri (lampStart sensitiveMode) (lampColor sensitiveMode) :=
    ⟨by decide +kernel, rfl, rfl, by decide, rfl, rfl, rfl⟩
  exact ⟨s, os, hrun, updates_kept_of_fresh lampUri (lampStart sensitiveMode)
    (lampStart sensitiveMode) s (lampColor sensitiveMode) [] freshRun [] os hready trivial rfl
    (by decide +kernel) hrun⟩

/-- An update begins, and the color is made sensitive. -/
def lossyBeginning : List ServiceOp :=
  [.updateResource (some "green".toList), .changeResourceMode sensitiveMode, .saveMode 1 true]

/-- The update goes on, and its event is overtaken by that of another one. -/
def lossyEnd : List ServiceOp :=
  [.saveValue 0 1 true, .updateResource (some "blue".toList), .saveValue 2 2 true,
    .sendEvent 2 true, .sendEvent 0 true]

/-- The sensitive bit is lost with the mode change, and after all calls have returned the last
event is about a value that is not stored. -/
theorem updates_lost : ∃ s₁ s₂ os₁ os₂ r₁ r₂,
    run (serviceStep lampUri) (lampStart observableMode) lossyBeginning = some (s₁, os₁) ∧
    run (serviceStep lampUri) s₁ lossyEnd = some (s₂, os₂) ∧
    jsonDatabaseGetResourceByUri s₁.db (some lampUri) = some (some r₁) ∧
    jsonDatabaseGetResourceByUri s₂.db (some lampUri) = some (some r₂) ∧
    (Sensitive r₁.mode ∧ ¬ Sensitive r₂.mode) ∧
    (s₂.lastMode = some sensitiveMode ∧ withoutLazySave r₂.mode ≠ withoutLazySave sensitiveMode) ∧
    (∀ call ∈ s₂.calls, call = .returned) ∧
    s₂.lastEvent = some (some "green".toList) ∧ r₂.value = some "blue".toList := by
  have hseen : ((run (serviceStep lampUri) (lampStart observableMode) lossyBeginning).bind
      fun first => (run (serviceStep lampUri) first.1 lossyEnd).bind
        fun second => (jsonDatabaseGetResourceByUri first.1.db (some lampUri)).join.bind
          fun r₁ => (jsonDatabaseGetResourceByUri second.1.db (some lampUri)).join.map
            fun r₂ => decide (r₁.mode = sensitiveMode ∧ r₂.mode = observableMode ∧
              r₂.value = some "blue".toList ∧ second.1.lastMode = some sensitiveMode ∧
              second.1.lastEvent = some (some "green".toList) ∧
              second.1.calls = [.returned, .returned, .returned])) = some true := by
    decide +kernel
  obtain ⟨⟨s₁, os₁⟩, hrun₁, hseen⟩ := bind_eq_some_iff.mp hseen
  obtain ⟨⟨s₂, os₂⟩, hrun₂, hseen⟩ := bind_eq_some_iff.mp hseen
  obtain ⟨r₁, hr₁, hseen⟩ := bind_eq_some_iff.mp hseen
  obtain ⟨r₂, hr₂, hseen⟩ := map_eq_some_iff.mp hseen
  obtain ⟨hmode₁, hmode₂, hvalue, hlastMode, hlastEvent, hcalls⟩ := of_decide_eq_true hseen
  refine ⟨s₁, s₂, os₁, os₂, r₁, r₂, hrun₁, hrun₂, join_eq_some_iff.mp hr₁,
    join_eq_some_iff.mp hr₂, ?_, ⟨hlastMode, ?_⟩, ?_, hlastEvent, hvalue⟩
  · rw [hmode₁, hmode₂]
    decide
  · rw [hmode₂]
    decide
  · rw [show s₂.calls = [.returned, .returned, .returned] from hcalls]
    simp

end ZilkerSdk.Device.ResourceUpdates
