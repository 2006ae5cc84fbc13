import ZilkerSdk.Lib.Pool
import ZilkerSdk.Lib.Run
import ZilkerSdk.Types.HashMap

/-!
# Starting and stopping the discovery of devices

Model of `deviceServiceDiscoverStart`, `deviceServiceDiscoverStop` and
`discoverDeviceClassThreadProc` in `services/device/core/src/deviceService.c`.  A start and a
stop run under `discoveryControlMutex` and are one step each.  A discovery thread goes through
stages: it tells the drivers to start, waits on the condition of its context, tells the drivers
to stop, and takes its class out of `activeDiscoveries`, again under the mutex.

A stop is a bare signal on the condition of a context.  It wakes the thread if that is waiting
and is lost otherwise.  Threads are made for each class of a list, but the map of the
contexts holds one for each class.

What the drivers answer, whether a thread can be made and when a wait ends without a signal are
inputs.  `covered` is not in the source: it records that a stop has been asked for.
-/

namespace ZilkerSdk.Device.Discovery

open Types Lib List Option

/-! ## The threads -/

/-- `DeviceDriver`, as far as a start of discovery looks at it. -/
structure DeviceDriver where
  /-- the driver has a function `recoverDevices` -/
  recoverDevices : Bool
deriving DecidableEq

/-- `discoverDeviceClassContext`, without the condition and the mutex. -/
structure DiscoverDeviceClassContext where
  deviceClass : CString
  timeoutSeconds : UInt16
  findOrphanedDevices : Bool
deriving DecidableEq

/-- Where `discoverDeviceClassThreadProc` stands. -/
inductive ThreadStage where
  /-- `createDetachedThread` has failed -/
  | noThread
  | starting
  | aboutToWait
  | waiting
  | woken
  | stopping
  | finishing
  /-- the context has been freed -/
  | ended
deriving DecidableEq

/-- What a signal on the condition does to the thread. -/
def ThreadStage.signalled : ThreadStage → ThreadStage
  | .waiting => .woken
  | stage => stage

/-- The thread will not wait any more. -/
def ThreadStage.pastWait : ThreadStage → Bool
  | .woken | .stopping | .finishing | .ended => true
  | _ => false

/-- A context with the thread that it was made for. -/
structure DiscoveryThread where
  ctx : DiscoverDeviceClassContext
  stage : ThreadStage
  covered : Bool
deriving DecidableEq

namespace DiscoveryThread

def running (t : DiscoveryThread) : Bool := t.stage ≠ .noThread && t.stage ≠ .ended

def key (t : DiscoveryThread) : Key := stringKey t.ctx.deviceClass

/-- Does a stop of the classes cover the thread? -/
def coveredBy (t : DiscoveryThread) (deviceClasses : Option (List CString)) : Bool :=
  t.running && deviceClasses.all fun classes => t.ctx.deviceClass ∈ classes

end DiscoveryThread

/-- The map of the contexts and all threads there have been; a context is known by the place of
its thread. -/
structure DiscoveryState where
  activeDiscoveries : IcHashMap Key Nat
  threads : List DiscoveryThread

/-- The steps of the two calls and of the threads, with what they take from elsewhere. -/
inductive DiscoveryOp where
  | discoverStart (deviceClasses : Option (List CString)) (timeoutSeconds : UInt16)
      (findOrphanedDevices : Bool) (created : Nat → Bool)
  | discoverStop (deviceClasses : Option (List CString))
  | startDrivers (thread : Nat) (started : Nat → Bool)
  | beginWait (thread : Nat)
  /-- the wait ends after a signal, after its time, or for no reason -/
  | endWait (thread : Nat)
  | stopDrivers (thread : Nat)
  | finish (thread : Nat)

/-! ## Starting and stopping -/

variable (drivers : CString → Option (List DeviceDriver))

/-- A class that is not being discovered is accepted if there are drivers for it, one of which
can recover devices if that is asked for. -/
def isAccepted (findOrphanedDevices : Bool) (deviceClass : CString) : Bool :=
  match drivers deviceClass with
  | none => false
  | some ds =>
    ds.length % 2 ^ 16 ≠ 0 && (!findOrphanedDevices || ds.any DeviceDriver.recoverDevices)

/-- The first loop of `deviceServiceDiscoverStart`, which stops at a class that is not accepted. -/
def selectClasses (active : IcHashMap Key Nat) (findOrphanedDevices : Bool) :
    List CString → Option (List CString)
  | [] => some []
  | deviceClass :: rest =>
    -- a class under way is skipped, but nothing is known yet of the other new ones
    if hashMapContains active (stringKey deviceClass) then
      selectClasses active findOrphanedDevices rest
    else if isAccepted drivers findOrphanedDevices deviceClass then
      (selectClasses active findOrphanedDevices rest).map (deviceClass :: ·)
    else none

/-- The classes for which a start makes threads. -/
def newDeviceClassDiscoveries (s : DiscoveryState) (deviceClasses : Option (List CString))
    (findOrphanedDevices : Bool) : Option (List CString) := do
  let classes ← deviceClasses
  let new ← selectClasses drivers s.activeDiscoveries findOrphanedDevices classes
  -- `linkedListCount` counts in 16 bits
  if new.length % 2 ^ 16 ≠ 0 then some new else none

/-- `startDiscoveryForDeviceClass`, and the `hashMapPut` after it, whose result is not looked at. -/
def startDiscoveryForDeviceClass (timeoutSeconds : UInt16) (findOrphanedDevices : Bool)
    (created : Nat → Bool) (s : DiscoveryState) (deviceClass : CString) : DiscoveryState :=
  let i := s.threads.length
  let stage : ThreadStage := if created i then .starting else .noThread
  { activeDiscoveries := (hashMapPut s.activeDiscoveries (stringKey deviceClass) i).1
    threads := s.threads ++ [⟨⟨deviceClass, timeoutSeconds, findOrphanedDevices⟩, stage, false⟩] }

def deviceServiceDiscoverStart (s : DiscoveryState) (deviceClasses : Option (List CString))
    (timeoutSeconds : UInt16) (findOrphanedDevices : Bool) (created : Nat → Bool) :
    DiscoveryState × Bool :=
  match newDeviceClassDiscoveries drivers s deviceClasses findOrphanedDevices with
  | none => (s, false)
  | some new =>
    (new.foldl (startDiscoveryForDeviceClass timeoutSeconds findOrphanedDevices created) s, true)

/-- `pthread_cond_signal(&ctx->cond)`. -/
def condSignal (threads : List DiscoveryThread) (i : Nat) : Option (List DiscoveryThread) := do
  let t ← threads[i]?
  if t.stage = .ended then none else some (threads.set i { t with stage := t.stage.signalled })

/-- The contexts that a stop signals: all, or those found under the classes of the list. -/
def contextsToSignal (s : DiscoveryState) : Option (List CString) → List Nat
  | none => s.activeDiscoveries.items.map Prod.snd
  | some classes => classes.filterMap fun deviceClass =>
      hashMapGet s.activeDiscoveries (stringKey deviceClass)

def deviceServiceDiscoverStop (s : DiscoveryState) (deviceClasses : Option (List CString)) :
    Option DiscoveryState := do
  let threads ← (contextsToSignal s deviceClasses).foldlM condSignal s.threads
  some { s with threads := threads.map fun t =>
    { t with covered := t.covered || t.coveredBy deviceClasses } }

/-! ## The steps -/

/-- The answers of the drivers of the class: has at least one started? -/
def atLeastOneStarted (ctx : DiscoverDeviceClassContext) (started : Nat → Bool) : Bool :=
  ((drivers ctx.deviceClass).getD []).zipIdx.any fun driver =>
    (!ctx.findOrphanedDevices || driver.1.recoverDevices) && started driver.2

/-- A step of a thread alone: the stage it comes to, if it can be made. -/
def nextStage (t : DiscoveryThread) : DiscoveryOp → Option ThreadStage
  | .startDrivers _ started =>
    if t.stage = .starting then
      some (if atLeastOneStarted drivers t.ctx started then .aboutToWait else .finishing)
    else none
  | .beginWait _ => if t.stage = .aboutToWait then some .waiting else none
  | .endWait _ => if t.stage = .waiting ∨ t.stage = .woken then some .stopping else none
  | .stopDrivers _ => if t.stage = .stopping then some .finishing else none
  | .finish _ => if t.stage = .finishing then some .ended else none
  | _ => none

/-- Let a thread make its step. -/
def threadStep (s : DiscoveryState) (i : Nat) (op : DiscoveryOp) : Option DiscoveryState := do
  let t ← s.threads[i]?
  let stage ← nextStage drivers t op
  some { s with threads := s.threads.set i { t with stage := stage } }

def discoveryStep (s : DiscoveryState) (op : DiscoveryOp) : Option (DiscoveryState × Option Bool) :=
  match op with
  | .discoverStart deviceClasses timeoutSeconds findOrphanedDevices created =>
    let (s, result) := deviceServiceDiscoverStart drivers s deviceClasses timeoutSeconds
      findOrphanedDevices created
    some (s, some result)
  | .discoverStop deviceClasses => do
    let s ← deviceServiceDiscoverStop s deviceClasses
    some (s, some true)
  | .startDrivers i _ | .beginWait i | .endWait i | .stopDrivers i => do
    let s ← threadStep drivers s i op
    some (s, none)
  | .finish i => do
    let t ← s.threads[i]?
    let s ← threadStep drivers s i op
    -- whatever is registered under the class is taken out
    some ({ s with activeDiscoveries := (hashMapDelete s.activeDiscoveries t.key).1 }, none)

/-! ## What holds between the steps -/

/-- The thread at a place after a signal to the places in the list. -/
def signalledThread (ids : List Nat) (i : Nat) (t : DiscoveryThread) : DiscoveryThread :=
  if i ∈ ids then { t with stage := t.stage.signalled } else t

/-- The thread at a place after a stop. -/
def stoppedThread (s : DiscoveryState) (deviceClasses : Option (List CString)) (i : Nat)
    (t : DiscoveryThread) : DiscoveryThread where
  ctx := t.ctx
  stage := (signalledThread (contextsToSignal s deviceClasses) i t).stage
  covered := t.covered || t.coveredBy deviceClasses

/-- Each running thread is registered under its class, what is registered is there, and a thread
that a stop has covered will not wait any more. -/
structure DiscoveryInv (s : DiscoveryState) : Prop where
  registered :
    EachAt (fun i t => t.running → hashMapGet s.activeDiscoveries t.key = some i) s.threads
  live : ∀ k i, hashMapGet s.activeDiscoveries k = some i →
    ∃ t, s.threads[i]? = some t ∧ t.stage ≠ .ended ∧ t.key = k
  stops : EachAt (fun _ t => t.covered → t.stage.pastWait) s.threads

/-- A start does not meet a new class twice, and a stop comes when the threads that it covers have
begun to wait. -/
def Orderly (s : DiscoveryState) : DiscoveryOp → Prop
  | .discoverStart deviceClasses _ findOrphanedDevices _ =>
    (((newDeviceClassDiscoveries drivers s deviceClasses findOrphanedDevices).getD []).map
      stringKey).Nodup
  | .discoverStop deviceClasses =>
    ∀ t ∈ s.threads, t.coveredBy deviceClasses → t.stage ≠ .starting ∧ t.stage ≠ .aboutToWait
  | _ => True

instance (s : DiscoveryState) (op : DiscoveryOp) : Decidable (Orderly drivers s op) := by
  delta Orderly
  split <;> infer_instance

variable {drivers} {s s' : DiscoveryState} {op : DiscoveryOp} {o : Option Bool}

namespace ThreadStage

variable {stage : ThreadStage}

theorem signalled_eq_ended : stage.signalled = .ended ↔ stage = .ended := by
  cases stage <;> simp [signalled]

theorem signalled_eq_noThread : stage.signalled = .noThread ↔ stage = .noThread := by
  cases stage <;> simp [signalled]

@[simp] theorem signalled_signalled (stage : ThreadStage) :
    stage.signalled.signalled = stage.signalled := by
  cases stage <;> rfl

theorem pastWait_signalled (h : stage.pastWait) : stage.signalled.pastWait := by
  cases stage <;> simp_all [signalled, pastWait]

end ThreadStage

section Signalled

variable {ids : List Nat} {i : Nat} {t : DiscoveryThread}

theorem stage_signalledThread :
    (signalledThread ids i t).stage = if i ∈ ids then t.stage.signalled else t.stage := by
  unfold signalledThread
  split <;> rfl

@[simp] theorem ctx_signalledThread : (signalledThread ids i t).ctx = t.ctx := by
  unfold signalledThread
  split <;> rfl

@[simp] theorem covered_signalledThread : (signalledThread ids i t).covered = t.covered := by
  unfold signalledThread
  split <;> rfl

@[simp] theorem running_signalledThread : (signalledThread ids i t).running = t.running := by
  rw [DiscoveryThread.running, stage_signalledThread]
  split
  · simp [DiscoveryThread.running, ThreadStage.signalled_eq_ended,
      ThreadStage.signalled_eq_noThread]
  · rfl

theorem signalledThread_live (h : t.stage ≠ .ended) : (signalledThread ids i t).stage ≠ .ended := by
  rw [stage_signalledThread]
  split
  · exact mt ThreadStage.signalled_eq_ended.mp h
  · exact h

end Signalled

variable {t : DiscoveryThread} {i : Nat} {threads threads' : List DiscoveryThread}
  {deviceClasses : Option (List CString)}

/-- The step of a thread: it was running, it does not fall behind its wait, and only the last step
ends it. -/
theorem nextStage_cases {stage : ThreadStage} (h : nextStage drivers t op = some stage) :
    t.running ∧ stage ≠ .noThread ∧ (t.stage.pastWait → stage.pastWait) ∧
      (stage = .ended → ∃ i, op = .finish i) := by
  cases op with
  | discoverStart _ _ _ _ | discoverStop _ => simp [nextStage] at h
  | startDrivers i started =>
    obtain ⟨hstage, h⟩ := ite_none_right_eq_some.mp h
    cases hstarted : atLeastOneStarted drivers t.ctx started <;>
      simp [hstarted] at h <;> simp [DiscoveryThread.running, hstage, ← h, ThreadStage.pastWait]
  | beginWait i =>
    obtain ⟨hstage, h⟩ := ite_none_right_eq_some.mp h
    simp [DiscoveryThread.running, hstage, ← some.inj h, ThreadStage.pastWait]
  | endWait i =>
    obtain ⟨hstage | hstage, h⟩ := ite_none_right_eq_some.mp h <;>
      simp [DiscoveryThread.running, hstage, ← some.inj h, ThreadStage.pastWait]
  | stopDrivers | finish =>
    obtain ⟨hstage, h⟩ := ite_none_right_eq_some.mp h
    simp [DiscoveryThread.running, hstage, ← some.inj h, ThreadStage.pastWait]

/-! ### Steps of a thread -/

theorem discoveryInv_threadStep (hinv : DiscoveryInv s) (hop : ∀ j, op ≠ .finish j)
    (h : threadStep drivers s i op = some s') : DiscoveryInv s' := by
  obtain ⟨t, ht, h⟩ := bind_eq_some_iff.mp h
  obtain ⟨stage, hnext, ⟨⟩⟩ := bind_eq_some_iff.mp h
  obtain ⟨hrunning, -, hpast, hended⟩ := nextStage_cases hnext
  refine ⟨?_, ?_, ?_⟩
  · exact hinv.registered.update ht fun _ => hinv.registered i t ht hrunning
  · intro k j hget
    obtain ⟨u, hu, hlive, hkey⟩ := hinv.live k j hget
    rw [getElem?_update ht]
    split
    · rename_i hj
      cases ht.symm.trans (hj ▸ hu)
      refine ⟨_, rfl, ?_, hkey⟩
      intro hend
      obtain ⟨j, rfl⟩ := hended hend
      exact hop j rfl
    · exact ⟨u, hu, hlive, hkey⟩
  · exact hinv.stops.update ht fun hcovered => hpast (hinv.stops i t ht hcovered)

theorem discoveryInv_finish (hinv : DiscoveryInv s) (ht : s.threads[i]? = some t)
    (h : threadStep drivers s i (.finish i) = some s') :
    DiscoveryInv { s' with activeDiscoveries := (hashMapDelete s'.activeDiscoveries t.key).1 } := by
  obtain ⟨t', ht', h⟩ := bind_eq_some_iff.mp h
  cases ht.symm.trans ht'
  obtain ⟨stage, hnext, ⟨⟩⟩ := bind_eq_some_iff.mp h
  obtain ⟨hstage, ⟨⟩⟩ := ite_none_right_eq_some.mp hnext
  have hrunning : t.running := by simp [DiscoveryThread.running, hstage]
  have hown := hinv.registered i t ht hrunning
  refine ⟨?_, ?_, ?_⟩
  · intro j u hu hrun
    rw [getElem?_update ht] at hu
    split at hu
    · cases hu
      simp [DiscoveryThread.running] at hrun
    · rename_i hj
      have hother := hinv.registered j u hu hrun
      -- two running threads are registered under different keys
      have hkey : u.key ≠ t.key := by
        intro hkey
        rw [hkey, hown] at hother
        exact hj (some.inj hother).symm
      rw [hashMapGet_delete, if_neg hkey]
      exact hother
  · intro k j hget
    rw [hashMapGet_delete] at hget
    split at hget
    · cases hget
    · rename_i hk
      obtain ⟨u, hu, hlive, hkey⟩ := hinv.live k j hget
      refine ⟨u, ?_, hlive, hkey⟩
      rw [getElem?_update ht, if_neg]
      · exact hu
      · rintro rfl
        cases ht.symm.trans hu
        exact hk hkey.symm
  · exact hinv.stops.update ht fun _ => rfl

/-! ### Starting -/

theorem selectClasses_free {active : IcHashMap Key Nat} {findOrphanedDevices : Bool}
    {classes new : List CString}
    (h : selectClasses drivers active findOrphanedDevices classes = some new) :
    ∀ deviceClass ∈ new, hashMapGet active (stringKey deviceClass) = none := by
  fun_induction selectClasses drivers active findOrphanedDevices classes generalizing new with
  | case1 =>
    cases h
    simp
  | case2 _ _ _ ih => exact ih h
  | case3 deviceClass rest hfree _ ih =>
    obtain ⟨new', hnew', rfl⟩ := map_eq_some_iff.mp h
    intro c hc
    rcases mem_cons.mp hc with rfl | hc
    · simpa [hashMapContains_eq] using hfree
    · exact ih hnew' c hc
  | case4 => cases h

section Spawn

variable {deviceClass : CString} {timeoutSeconds : UInt16} {findOrphanedDevices : Bool}
  {created : Nat → Bool}

theorem registered_spawn (hfree : hashMapGet s.activeDiscoveries (stringKey deviceClass) = none)
    (k : Key) :
    hashMapGet (startDiscoveryForDeviceClass timeoutSeconds findOrphanedDevices created s
        deviceClass).activeDiscoveries k =
      if k = stringKey deviceClass then some s.threads.length
      else hashMapGet s.activeDiscoveries k :=
  hashMapGet_put hfree k

theorem discoveryInv_spawn (hinv : DiscoveryInv s)
    (hfree : hashMapGet s.activeDiscoveries (stringKey deviceClass) = none) :
    DiscoveryInv
      (startDiscoveryForDeviceClass timeoutSeconds findOrphanedDevices created s deviceClass) := by
  refine ⟨?_, ?_, hinv.stops.spawn (by simp)⟩
  · refine EachAt.spawn ?_ fun _ => by rw [registered_spawn hfree, DiscoveryThread.key, if_pos rfl]
    refine hinv.registered.mono fun i t ht hreg hrun => ?_
    rw [registered_spawn hfree, if_neg]
    · exact hreg hrun
    · -- a running thread holds its key, so it is not the free one
      intro hkey
      rw [← hkey, hreg hrun] at hfree
      cases hfree
  · intro k i hki
    rw [registered_spawn hfree] at hki
    split at hki
    · rename_i hk
      cases hki
      refine ⟨_, getElem?_concat_length, ?_, hk.symm⟩
      split <;> simp
    · obtain ⟨t, ht, hlive, hkey⟩ := hinv.live k i hki
      refine ⟨t, ?_, hlive, hkey⟩
      rw [startDiscoveryForDeviceClass, getElem?_spawn, if_neg]
      · exact ht
      · exact Nat.ne_of_lt (List.getElem?_eq_some_iff.mp ht).1

/-- The second loop of a start, over classes that are free and do not repeat. -/
theorem discoveryInv_spawns {new : List CString} (hinv : DiscoveryInv s)
    (hfree : ∀ c ∈ new, hashMapGet s.activeDiscoveries (stringKey c) = none)
    (hnodup : (new.map stringKey).Nodup) :
    DiscoveryInv
      (new.foldl (startDiscoveryForDeviceClass timeoutSeconds findOrphanedDevices created) s) := by
  induction new generalizing s with
  | nil => exact hinv
  | cons c new ih =>
    rw [map_cons, nodup_cons] at hnodup
    refine ih (discoveryInv_spawn hinv (hfree c mem_cons_self)) ?_ hnodup.2
    -- the class just started does not come again, so the others are still free
    intro d hd
    have hne : stringKey d ≠ stringKey c := by
      intro heq
      exact hnodup.1 (heq ▸ mem_map_of_mem hd)
    rw [registered_spawn (hfree c mem_cons_self), if_neg hne]
    exact hfree d (mem_cons_of_mem c hd)

end Spawn

/-! ### Stopping -/

theorem condSignal_spec (h : condSignal threads i = some threads') (j : Nat) :
    threads'[j]? = (threads[j]?).map (signalledThread [i] j) := by
  obtain ⟨t, ht, h⟩ := bind_eq_some_iff.mp h
  obtain ⟨-, ⟨⟩⟩ := ite_none_left_eq_some.mp h
  rw [getElem?_update ht]
  split
  · rename_i hj
    simp [hj, ht, signalledThread]
  · rename_i hj
    cases threads[j]? <;> simp [signalledThread, hj]

theorem condSignals_spec {ids : List Nat} (h : ids.foldlM condSignal threads = some threads')
    (j : Nat) : threads'[j]? = (threads[j]?).map (signalledThread ids j) := by
  induction ids generalizing threads with
  | nil =>
    obtain rfl := some.inj h
    cases threads[j]? <;> simp [signalledThread]
  | cons i ids ih =>
    obtain ⟨threads₁, h₁, h⟩ := bind_eq_some_iff.mp h
    rw [ih h, condSignal_spec h₁, Option.map_map]
    congr 1
    funext t
    -- a second signal does nothing
    by_cases hi : j = i <;> by_cases hids : j ∈ ids <;> simp [signalledThread, hi, hids]

theorem mem_contextsToSignal (hcovered : t.coveredBy deviceClasses)
    (hreg : hashMapGet s.activeDiscoveries t.key = some i) :
    i ∈ contextsToSignal s deviceClasses := by
  cases deviceClasses with
  | none => exact mem_map.mpr ⟨_, mem_items_iff.mpr hreg, rfl⟩
  | some classes =>
    have hmem : t.ctx.deviceClass ∈ classes := by
      simpa [DiscoveryThread.coveredBy] using (Bool.and_eq_true_iff.mp hcovered).2
    exact mem_filterMap.mpr ⟨_, hmem, hreg⟩

/-- What a stop does to the threads. -/
theorem discoverStop_spec (h : deviceServiceDiscoverStop s deviceClasses = some s') :
    s'.activeDiscoveries = s.activeDiscoveries ∧
      ∀ i, s'.threads[i]? = (s.threads[i]?).map (stoppedThread s deviceClasses i) := by
  obtain ⟨threads, hthreads, ⟨⟩⟩ := bind_eq_some_iff.mp h
  refine ⟨rfl, fun i => ?_⟩
  rw [getElem?_map, condSignals_spec hthreads, Option.map_map]
  congr 1
  funext t
  simp [stoppedThread, DiscoveryThread.coveredBy]

theorem discoveryInv_discoverStop (hinv : DiscoveryInv s)
    (hop : Orderly drivers s (.discoverStop deviceClasses))
    (h : deviceServiceDiscoverStop s deviceClasses = some s') : DiscoveryInv s' := by
  obtain ⟨hactive, hthreads⟩ := discoverStop_spec h
  -- each thread after the stop comes from the one that was at its place
  have hfrom : ∀ {i u}, s'.threads[i]? = some u →
      ∃ t, s.threads[i]? = some t ∧ stoppedThread s deviceClasses i t = u := by
    intro i u hu
    exact map_eq_some_iff.mp ((hthreads i).symm.trans hu)
  refine ⟨?_, ?_, ?_⟩
  · intro i u hu hrun
    obtain ⟨t, ht, rfl⟩ := hfrom hu
    rw [hactive]
    exact hinv.registered i t ht (running_signalledThread ▸ hrun)
  · intro k i hget
    obtain ⟨t, ht, hlive, hkey⟩ := hinv.live k i (hactive ▸ hget)
    exact ⟨stoppedThread s deviceClasses i t, by rw [hthreads, ht, map_some],
      signalledThread_live hlive, hkey⟩
  · intro i u hu hcovered
    obtain ⟨t, ht, rfl⟩ := hfrom hu
    show (signalledThread _ i t).stage.pastWait
    rw [stage_signalledThread]
    rcases Bool.or_eq_true_iff.mp hcovered with hold | hnew
    · -- covered before: it was past its wait already
      have hpast := hinv.stops i t ht hold
      split
      · exact ThreadStage.pastWait_signalled hpast
      · exact hpast
    · -- covered now: it is registered, so the signal reaches it
      have hrunning : t.running := (Bool.and_eq_true_iff.mp hnew).1
      obtain ⟨hstarting, hbegun⟩ := hop t (mem_of_getElem? ht) hnew
      rw [if_pos (mem_contextsToSignal hnew (hinv.registered i t ht hrunning))]
      simp only [DiscoveryThread.running] at hrunning
      cases hstage : t.stage <;> simp_all [ThreadStage.signalled, ThreadStage.pastWait]

/-! ## Runs -/

/-- What every orderly step keeps. -/
theorem discoveryStep_discoveryInv (hinv : DiscoveryInv s) (hop : Orderly drivers s op)
    (h : discoveryStep drivers s op = some (s', o)) : DiscoveryInv s' := by
  cases op with
  | discoverStart deviceClasses timeoutSeconds findOrphanedDevices created =>
    simp only [discoveryStep, deviceServiceDiscoverStart] at h
    split at h
    · cases h
      exact hinv
    · rename_i new hnew
      cases h
      refine discoveryInv_spawns hinv ?_ (by simpa [Orderly, hnew] using hop)
      obtain ⟨classes, -, hnew⟩ := bind_eq_some_iff.mp hnew
      obtain ⟨new', hselect, hnew⟩ := bind_eq_some_iff.mp hnew
      obtain rfl := some.inj (ite_none_right_eq_some.mp hnew).2
      exact selectClasses_free hselect
  | discoverStop deviceClasses =>
    obtain ⟨s₁, hstop, ⟨⟩⟩ := bind_eq_some_iff.mp h
    exact discoveryInv_discoverStop hinv hop hstop
  | startDrivers i _ | beginWait i | endWait i | stopDrivers i =>
    obtain ⟨s₁, hthread, ⟨⟩⟩ := bind_eq_some_iff.mp h
    exact discoveryInv_threadStep hinv (by simp) hthread
  | finish i =>
    obtain ⟨t, ht, h⟩ := bind_eq_some_iff.mp h
    obtain ⟨s₁, hthread, ⟨⟩⟩ := bind_eq_some_iff.mp h
    exact discoveryInv_finish hinv ht hthread

/-- Every running discovery can be stopped: there is one thread for each class, it is registered
under its class, and no thread that a stop has covered is waiting. -/
structure Stoppable (s : DiscoveryState) : Prop where
  unique : ∀ (i j : Nat) (t u : DiscoveryThread), s.threads[i]? = some t → s.threads[j]? = some u →
    t.running → u.running → t.ctx.deviceClass = u.ctx.deviceClass → i = j
  registered : ∀ (i : Nat) (t : DiscoveryThread), s.threads[i]? = some t → t.running →
    hashMapGet s.activeDiscoveries (stringKey t.ctx.deviceClass) = some i
  woken : ∀ t ∈ s.threads, t.covered → t.stage ≠ .waiting

theorem DiscoveryInv.stoppable (hinv : DiscoveryInv s) : Stoppable s where
  unique := by
    intro i j t u ht hu hrunT hrunU hclass
    have hi := hinv.registered i t ht hrunT
    have hj := hinv.registered j u hu hrunU
    rw [DiscoveryThread.key, hclass] at hi
    exact some.inj (hi.symm.trans hj)
  registered := fun i t ht hrun => hinv.registered i t ht hrun
  woken := by
    intro t ht hcovered hwaiting
    obtain ⟨i, hi⟩ := getElem?_of_mem ht
    have hpast := hinv.stops i t hi hcovered
    rw [hwaiting] at hpast
    cases hpast

/-- Nothing has been started. -/
def noDiscoveries : DiscoveryState := ⟨hashMapCreate, []⟩

theorem discoveryInv_noDiscoveries : DiscoveryInv noDiscoveries :=
  ⟨eachAt_nil, by simp [noDiscoveries], eachAt_nil⟩

/-- One driver for every class. -/
def oneDriver (_ : CString) : Option (List DeviceDriver) := some [⟨true⟩]

def sensor : CString := "sensor".toList

/-- Start the classes without a time limit; every thread can be made. -/
def startAll (deviceClasses : List CString) : DiscoveryOp :=
  .discoverStart (some deviceClasses) 0 false fun _ => true

/-- The thread comes to its wait, is stopped there and ends. -/
def orderlyRun : List DiscoveryOp :=
  [startAll [sensor], .startDrivers 0 (fun _ => true), .beginWait 0, .discoverStop none, .endWait 0,
    .stopDrivers 0, .finish 0]

/-- The same class twice. -/
def doubleStart : List DiscoveryOp := [startAll [sensor, sensor]]

/-- The stop comes before the thread waits. -/
def earlyStop : List DiscoveryOp :=
  [startAll [sensor], .startDrivers 0 (fun _ => true), .discoverStop none, .beginWait 0]

end ZilkerSdk.Device.Discovery
