import Mathlib.Data.List.Perm.Basic
import ZilkerSdk.Lib.Run
import ZilkerSdk.Types.HashMap

/-!
# The communication watchdog

Model of `services/device/core/src/deviceCommunicationWatchdog.c`.  The watchdog
keeps for each monitored device when it was heard of last and whether it is in
communication failure.  `PetDevice` clears the flag, `ForceDeviceInCommFail` and the
scan of the monitor thread set it, each under `monitoredDevicesMutex`.  Whoever
changes the flag calls the failed or restored callback afterwards, when the mutex
has been released: until then the callback is pending.

The scan collects a list of devices under the mutex and calls the callback for one
after the other; the next scan starts when the list is done.  Every other call
delivers at most one callback, whenever its thread gets to it.
-/

namespace ZilkerSdk.Device.CommWatchdog

open Types Lib List

/-! ## State -/

structure MonitoredDeviceInfo where
  uuid : CString
  commFailTimeoutSeconds : Nat
  lastSuccessfulCommunicationMillis : Nat
  inCommFail : Bool
  deriving Repr, DecidableEq

/-- Which of the two callbacks is called. -/
inductive CommEvent where
  | failed
  | restored
  deriving Repr, DecidableEq

/-- A call of `failedCallback` or `restoredCallback`. -/
structure Callback where
  uuid : CString
  event : CommEvent
  deriving Repr, DecidableEq

/-- Who is going to call a pending callback. -/
inductive Source where
  | monitorThread
  | caller
  deriving Repr, DecidableEq

/-- A callback that was decided and not yet called. -/
structure PendingCallback where
  source : Source
  callback : Callback
  deriving Repr, DecidableEq

/-- The watchdog; `pending` is in the order in which the callbacks were decided,
`delivered` in the order in which they were called. -/
structure Watchdog where
  monitoredDevices : IcHashMap Key MonitoredDeviceInfo
  running : Bool
  fastCommFailTimer : Bool
  pending : List PendingCallback
  delivered : List Callback

/-- The watchdog after `deviceCommunicationWatchdogInit`. -/
def deviceCommunicationWatchdogInit (fastCommFailTimer : Bool) : Watchdog :=
  ⟨hashMapCreate, true, fastCommFailTimer, [], []⟩

/-! ## Calls -/

def deviceCommunicationWatchdogMonitorDevice (w : Watchdog) (uuid : CString)
    (commFailTimeoutSeconds : Nat) (inCommFail : Bool) (now : Nat) : Watchdog :=
  if commFailTimeoutSeconds = 0 then w
  else if w.running then
    -- a device that is monitored already is left as it is
    { w with
      monitoredDevices := (hashMapPut w.monitoredDevices (stringKey uuid)
        ⟨uuid, commFailTimeoutSeconds, now, inCommFail⟩).1 }
  else w

def deviceCommunicationWatchdogStopMonitoringDevice (w : Watchdog) (uuid : CString) : Watchdog :=
  { w with monitoredDevices := (hashMapDelete w.monitoredDevices (stringKey uuid)).1 }

/-- Write to the entry of a device and leave a callback pending. -/
def decideCallback (w : Watchdog) (key : Key) (f : MonitoredDeviceInfo → MonitoredDeviceInfo)
    (pending : PendingCallback) : Watchdog :=
  { w with
    monitoredDevices := hashMapModify w.monitoredDevices key f
    pending := w.pending ++ [pending] }

def deviceCommunicationWatchdogPetDevice (w : Watchdog) (uuid : CString) (now : Nat) : Watchdog :=
  match hashMapGet w.monitoredDevices (stringKey uuid) with
  | none => w
  | some info =>
    -- `doNotify`: the callback is called after the mutex is released
    if info.inCommFail then
      decideCallback w (stringKey uuid)
        (fun i => { i with lastSuccessfulCommunicationMillis := now, inCommFail := false })
        ⟨.caller, uuid, .restored⟩
    else
      { w with
        monitoredDevices := hashMapModify w.monitoredDevices (stringKey uuid)
          fun i => { i with lastSuccessfulCommunicationMillis := now } }

def deviceCommunicationWatchdogForceDeviceInCommFail (w : Watchdog) (uuid : CString) : Watchdog :=
  match hashMapGet w.monitoredDevices (stringKey uuid) with
  | none => w
  | some info =>
    -- a device in failure already is left alone
    if info.inCommFail then w
    else
      decideCallback w (stringKey uuid) (fun i => { i with inCommFail := true })
        ⟨.caller, uuid, .failed⟩

def deviceCommunicationWatchdogResetTimeoutForDevice (w : Watchdog) (uuid : CString)
    (commFailTimeoutSeconds now : Nat) : Watchdog :=
  if commFailTimeoutSeconds = 0 then w
  else
    { w with
      monitoredDevices := hashMapModify w.monitoredDevices (stringKey uuid) fun i =>
        { i with
          commFailTimeoutSeconds := commFailTimeoutSeconds
          lastSuccessfulCommunicationMillis :=
            -- a device in failure is not taken for just heard of
            if i.inCommFail then i.lastSuccessfulCommunicationMillis else now } }

/-! ## The monitor thread -/

/-- Whether a device has not been heard of for longer than its timeout.  The times are
`uint64_t`, the timeout is `uint32_t` seconds, or hundredths of it in milliseconds for tests. -/
def isTimedOut (fastCommFailTimer : Bool) (info : MonitoredDeviceInfo) (now : Nat) : Bool :=
  (if fastCommFailTimer then info.commFailTimeoutSeconds / 100
    else info.commFailTimeoutSeconds * 1000) <
      (now + 2 ^ 64 - info.lastSuccessfulCommunicationMillis) % 2 ^ 64

/-- The turn of the scan for the device with one key. -/
def scanDevice (w : Watchdog) (key : Key) (now : Nat) : Watchdog :=
  match hashMapGet w.monitoredDevices key with
  | none => w
  | some info =>
    if isTimedOut w.fastCommFailTimer info now && !info.inCommFail then
      decideCallback w key (fun i => { i with inCommFail := true })
        -- the uuid goes to the list of callbacks, which outlives the mutex
        ⟨.monitorThread, info.uuid, .failed⟩
    else w

/-- One scan of `commFailWatchdogThreadProc` under the mutex; `turns` are the keys in the order
of the iterator, each with the time read in its turn. -/
def scan (w : Watchdog) (turns : List (Key × Nat)) : Watchdog :=
  turns.foldl (fun w turn => scanDevice w turn.1 turn.2) w

/-! ## Steps -/

inductive Op where
  | monitorDevice (uuid : CString) (commFailTimeoutSeconds : Nat) (inCommFail : Bool) (now : Nat)
  | stopMonitoringDevice (uuid : CString)
  | petDevice (uuid : CString) (now : Nat)
  | forceDeviceInCommFail (uuid : CString)
  | resetTimeoutForDevice (uuid : CString) (commFailTimeoutSeconds now : Nat)
  | propertyChanged (fastCommFailTimer : Bool)
  | scan (turns : List (Key × Nat))
  /-- the pending callback with this index is called -/
  | deliver (index : Nat)

/-- Whether the callback with an index is the turn of its thread: the monitor thread goes
through its list in order. -/
def isNext (w : Watchdog) (index : Nat) (p : PendingCallback) : Bool :=
  match p.source with
  | .caller => true
  | .monitorThread => (w.pending.take index).all fun earlier => earlier.source = .caller

/-- One step; a scan starts when the monitor thread has delivered the callbacks of the last
one and visits every device. -/
def step (w : Watchdog) : Op → Option (Watchdog × Unit)
  | .monitorDevice uuid secs inCommFail now =>
    some (deviceCommunicationWatchdogMonitorDevice w uuid secs inCommFail now, ())
  | .stopMonitoringDevice uuid => some (deviceCommunicationWatchdogStopMonitoringDevice w uuid, ())
  | .petDevice uuid now => some (deviceCommunicationWatchdogPetDevice w uuid now, ())
  | .forceDeviceInCommFail uuid =>
    some (deviceCommunicationWatchdogForceDeviceInCommFail w uuid, ())
  | .resetTimeoutForDevice uuid secs now =>
    some (deviceCommunicationWatchdogResetTimeoutForDevice w uuid secs now, ())
  | .propertyChanged fast => some ({ w with fastCommFailTimer := fast }, ())
  | .scan turns =>
    -- the list of the last scan is done, and the iterator visits each key once
    if (∀ p ∈ w.pending, p.source = .caller) ∧
        (turns.map Prod.fst).Perm (w.monitoredDevices.items.map Prod.fst) then
      some (scan w turns, ())
    else none
  | .deliver index =>
    match w.pending[index]? with
    | none => none
    | some p =>
      if isNext w index p then
        some ({ w with
          pending := w.pending.eraseIdx index
          delivered := w.delivered ++ [p.callback] }, ())
      else none

/-! ## The last callback of a device -/

/-- The last callback of a log for the device with a key. -/
def lastCallback (key : Key) (log : List Callback) : Option CommEvent :=
  ((log.filter fun c => stringKey c.uuid = key).getLast?).map Callback.event

theorem lastCallback_append (key : Key) (log log' : List Callback) :
    lastCallback key (log ++ log') = (lastCallback key log').or (lastCallback key log) := by
  rw [lastCallback, filter_append, getLast?_append, Option.map_or]
  rfl

theorem lastCallback_singleton (key : Key) (c : Callback) :
    lastCallback key [c] = if stringKey c.uuid = key then some c.event else none := by
  by_cases h : stringKey c.uuid = key <;> simp [lastCallback, h]

variable {key : Key} {c : Callback} {f : MonitoredDeviceInfo → MonitoredDeviceInfo}
  {p : PendingCallback}

theorem lastCallback_eq_none {log : List Callback} (h : ∀ c ∈ log, stringKey c.uuid ≠ key) :
    lastCallback key log = none := by
  have hfilter : (log.filter fun c => stringKey c.uuid = key) = [] := by
    simpa [filter_eq_nil_iff] using h
  simp [lastCallback, hfilter]

theorem lastCallback_ne_none {log : List Callback} (hc : c ∈ log) (hkey : stringKey c.uuid = key) :
    ∃ event, lastCallback key log = some event := by
  have hmem : c ∈ log.filter fun c => stringKey c.uuid = key := by simp [hc, hkey]
  obtain ⟨last, hlast⟩ := Option.isSome_iff_exists.mp
    (getLast?_isSome.mpr (ne_nil_of_mem hmem))
  exact ⟨last.event, by simp [lastCallback, hlast]⟩

/-- Everything decided so far, with what is still pending at the end. -/
def log (w : Watchdog) : List Callback := w.delivered ++ w.pending.map PendingCallback.callback

/-! ## The invariant -/

/-- The entry of a device carries its uuid and its flag tells the callback decided last. -/
structure EntryOk (w : Watchdog) (key : Key) (info : MonitoredDeviceInfo) : Prop where
  keyed : stringKey info.uuid = key
  agrees : info.inCommFail = true ↔ lastCallback key (log w) = some .failed

def WatchdogInv (w : Watchdog) : Prop :=
  ∀ key info, hashMapGet w.monitoredDevices key = some info → EntryOk w key info

variable {w w' : Watchdog}

theorem watchdogInv_init (fast : Bool) : WatchdogInv (deviceCommunicationWatchdogInit fast) := by
  intro key info hget
  simp [deviceCommunicationWatchdogInit] at hget

section

variable (h : WatchdogInv w)
include h

theorem watchdogInv_modify (key : Key)
    (hf : ∀ info, hashMapGet w.monitoredDevices key = some info →
      (f info).uuid = info.uuid ∧ (f info).inCommFail = info.inCommFail) :
    WatchdogInv { w with monitoredDevices := hashMapModify w.monitoredDevices key f } := by
  intro key' info hget
  -- the written entry and all others
  rw [hashMapGet_modify] at hget
  split at hget
  · rename_i hkey
    subst hkey
    obtain ⟨old, hold, rfl⟩ := Option.map_eq_some_iff.mp hget
    have hentry := h key' old hold
    obtain ⟨huuid, hflag⟩ := hf old hold
    refine ⟨?_, ?_⟩
    · rw [huuid]
      exact hentry.keyed
    · rw [hflag]
      exact hentry.agrees
  · exact { h key' info hget with }

/-- Changing the flag and deciding the callback that tells so. -/
theorem watchdogInv_decideCallback (hkey : stringKey p.callback.uuid = key)
    (hf : ∀ info, (f info).uuid = info.uuid ∧
      ((f info).inCommFail = true ↔ p.callback.event = .failed)) :
    WatchdogInv (decideCallback w key f p) := by
  have hlog : log (decideCallback w key f p) = log w ++ [p.callback] := by
    simp [log, decideCallback]
  intro key' info hget
  change hashMapGet (hashMapModify w.monitoredDevices key f) key' = some info at hget
  rw [hashMapGet_modify] at hget
  split at hget
  · rename_i hkey'
    subst hkey'
    obtain ⟨old, hold, rfl⟩ := Option.map_eq_some_iff.mp hget
    refine ⟨?_, ?_⟩
    · rw [(hf old).1]
      exact (h key' old hold).keyed
    -- the new callback is the last one of its device
    · rw [hlog, lastCallback_append, lastCallback_singleton, if_pos hkey, (hf old).2]
      simp
  · rename_i hne
    -- the log of another device does not change
    have hother : ¬ stringKey p.callback.uuid = key' := fun e => hne (e ▸ hkey)
    refine ⟨(h key' info hget).keyed, ?_⟩
    rw [hlog, lastCallback_append, lastCallback_singleton, if_neg hother]
    exact (h key' info hget).agrees

theorem watchdogInv_monitorDevice {uuid : CString} (secs : Nat) {inCommFail : Bool} (now : Nat)
    (hagrees : hashMapGet w.monitoredDevices (stringKey uuid) = none →
      (inCommFail = true ↔ lastCallback (stringKey uuid) (log w) = some .failed)) :
    WatchdogInv (deviceCommunicationWatchdogMonitorDevice w uuid secs inCommFail now) := by
  unfold deviceCommunicationWatchdogMonitorDevice
  split
  · exact h
  · split
    · intro key info hget
      -- `hashMapPut` keeps what is there, so only a new entry needs the condition
      rw [hashMapGet_put_or, Option.or_eq_some_iff] at hget
      obtain hget | ⟨hold, hget⟩ := hget
      · exact { h key info hget with }
      · obtain ⟨rfl, ⟨⟩⟩ := Option.ite_none_right_eq_some.mp hget
        exact ⟨rfl, hagrees hold⟩
    · exact h

theorem watchdogInv_stopMonitoringDevice (uuid : CString) :
    WatchdogInv (deviceCommunicationWatchdogStopMonitoringDevice w uuid) := by
  intro key info hget
  change hashMapGet (hashMapDelete w.monitoredDevices (stringKey uuid)).1 key = some info at hget
  rw [hashMapGet_delete] at hget
  split at hget
  · cases hget
  · exact { h key info hget with }

theorem watchdogInv_petDevice (uuid : CString) (now : Nat) :
    WatchdogInv (deviceCommunicationWatchdogPetDevice w uuid now) := by
  unfold deviceCommunicationWatchdogPetDevice
  split
  · exact h
  · split
    · exact watchdogInv_decideCallback h rfl (by simp)
    · exact watchdogInv_modify h _ (by simp)

theorem watchdogInv_scanDevice (key : Key) (now : Nat) : WatchdogInv (scanDevice w key now) := by
  unfold scanDevice
  split
  · exact h
  · rename_i info hget
    split
    · exact watchdogInv_decideCallback h (h key info hget).keyed (by simp)
    · exact h

theorem watchdogInv_scan (turns : List (Key × Nat)) : WatchdogInv (scan w turns) := by
  induction turns generalizing w with
  | nil => exact h
  | cons turn rest ih => exact ih (watchdogInv_scanDevice h turn.1 turn.2)

end

/-! ## Delivery -/

/-- No callback of the same device that was decided earlier than the one with this index is
still pending, or one that was decided later is. -/
def Unovertaken (w : Watchdog) (index : Nat) (c : Callback) : Prop :=
  (∀ p ∈ w.pending.take index, stringKey p.callback.uuid ≠ stringKey c.uuid) ∨
    ∃ p ∈ w.pending.drop (index + 1), stringKey p.callback.uuid = stringKey c.uuid

instance (w : Watchdog) (index : Nat) (c : Callback) : Decidable (Unovertaken w index c) :=
  inferInstanceAs (Decidable (_ ∨ _))

/-- Moving a callback that is not the last of its device to the front of the pending ones, or
past those of other devices, leaves the last callback of every device alone. -/
theorem lastCallback_deliver (delivered : List Callback) {before after : List Callback}
    (hc : (∀ b ∈ before, stringKey b.uuid ≠ stringKey c.uuid) ∨
      ∃ a ∈ after, stringKey a.uuid = stringKey c.uuid) (key : Key) :
    lastCallback key (delivered ++ [c] ++ (before ++ after)) =
      lastCallback key (delivered ++ (before ++ [c] ++ after)) := by
  simp only [lastCallback_append, lastCallback_singleton]
  -- callbacks of other devices pass each other unnoticed
  by_cases hkey : stringKey c.uuid = key
  · subst hkey
    rcases hc with hbefore | ⟨a, ha, hakey⟩
    · simp [lastCallback_eq_none hbefore]
    · obtain ⟨event, hevent⟩ := lastCallback_ne_none ha hakey
      simp [hevent]
  · simp [hkey]

theorem watchdogInv_deliver (h : WatchdogInv w) {index : Nat} (hp : w.pending[index]? = some p)
    (hc : Unovertaken w index p.callback) :
    WatchdogInv { w with
      pending := w.pending.eraseIdx index
      delivered := w.delivered ++ [p.callback] } := by
  have hsplit : w.pending = w.pending.take index ++ [p] ++ w.pending.drop (index + 1) := by
    obtain ⟨hlt, heq⟩ := List.getElem?_eq_some_iff.mp hp
    rw [← heq, append_assoc, singleton_append, ← drop_eq_getElem_cons hlt, take_append_drop]
  have hothers :
      (∀ b ∈ (w.pending.take index).map PendingCallback.callback,
        stringKey b.uuid ≠ stringKey p.callback.uuid) ∨
      ∃ a ∈ (w.pending.drop (index + 1)).map PendingCallback.callback,
        stringKey a.uuid = stringKey p.callback.uuid := by
    rcases hc with hbefore | ⟨a, ha, hakey⟩
    · left
      intro b hb
      obtain ⟨earlier, hearlier, rfl⟩ := mem_map.mp hb
      exact hbefore earlier hearlier
    · exact .inr ⟨a.callback, mem_map_of_mem ha, hakey⟩
  -- taking the callback out of the pending ones does not change who is last
  have hlast : ∀ key, lastCallback key
      (log { w with
        pending := w.pending.eraseIdx index
        delivered := w.delivered ++ [p.callback] }) = lastCallback key (log w) := by
    intro key
    have hmoved := lastCallback_deliver w.delivered hothers key
    rw [log, log, eraseIdx_eq_take_drop_succ, map_append, hmoved]
    nth_rewrite 3 [hsplit]
    simp
  intro key info hget
  have hentry := h key info hget
  exact ⟨hentry.keyed, by rw [hlast]; exact hentry.agrees⟩

/-! ## Runs -/

/-- The callbacks of one device are not overtaken by earlier ones, and monitoring starts with
the flag that the last callback of the device tells. -/
def InOrder (w : Watchdog) : Op → Prop
  | .monitorDevice uuid _ inCommFail _ =>
    hashMapGet w.monitoredDevices (stringKey uuid) = none →
      (inCommFail = true ↔ lastCallback (stringKey uuid) (log w) = some .failed)
  | .deliver index => ∀ p ∈ w.pending[index]?, Unovertaken w index p.callback
  | _ => True

instance (w : Watchdog) (op : Op) : Decidable (InOrder w op) := by
  delta InOrder
  split <;> infer_instance

theorem step_watchdogInv {op : Op} {o : Unit} (h : WatchdogInv w) (hcond : InOrder w op)
    (hstep : step w op = some (w', o)) : WatchdogInv w' := by
  revert hstep
  fun_cases step w op <;> rintro ⟨⟩
  case case1 secs _ now => exact watchdogInv_monitorDevice h secs now hcond
  case case2 uuid => exact watchdogInv_stopMonitoringDevice h uuid
  case case3 uuid now => exact watchdogInv_petDevice h uuid now
  case case4 uuid =>
    fun_cases deviceCommunicationWatchdogForceDeviceInCommFail w uuid
    case case3 => exact watchdogInv_decideCallback h rfl (by simp)
    all_goals exact h
  case case5 uuid secs now =>
    unfold deviceCommunicationWatchdogResetTimeoutForDevice
    split
    · exact h
    · exact watchdogInv_modify h _ (by simp)
  case case6 => exact fun key info hget => { h key info hget with }
  case case7 turns _ => exact watchdogInv_scan h turns
  case case10 p hp _ => exact watchdogInv_deliver h hp (hcond p hp)

/-- Once no callback is pending, the last one delivered for a monitored device is `failed`
exactly when the device is in communication failure. -/
def NotificationsAgree (w : Watchdog) : Prop :=
  w.pending = [] → ∀ item ∈ w.monitoredDevices.items,
    (lastCallback item.1 w.delivered = some .failed ↔ item.2.inCommFail = true)

theorem WatchdogInv.notificationsAgree (h : WatchdogInv w) : NotificationsAgree w := by
  intro hpending item hitem
  have hentry := (h item.1 item.2 (mem_items_iff.mp hitem)).agrees
  rw [log, hpending, map_nil, append_nil] at hentry
  exact hentry.symm

/-- The uuid of the device in the runs below. -/
def light : CString := "light".toList

/-- A device fails, is heard of again, and is forced into failure while the callbacks are
called in the order in which they were decided. -/
def orderlyRun : List Op :=
  [.monitorDevice light 60 false 0, .scan [(stringKey light, 61000)], .petDevice light 61001,
    .deliver 0, .forceDeviceInCommFail light, .deliver 0, .deliver 0]

/-- The device is heard of after the scan has given it up and before the monitor thread has
called the callback; the restored callback is called first. -/
def overtakenRun : List Op :=
  [.monitorDevice light 60 false 0, .scan [(stringKey light, 61000)], .petDevice light 61001,
    .deliver 1, .deliver 0]

end ZilkerSdk.Device.CommWatchdog
