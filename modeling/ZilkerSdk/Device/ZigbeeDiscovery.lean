import ZilkerSdk.Lib.Backlog
import ZilkerSdk.Lib.Run

/-!
# Opening the zigbee network for joining

Model of `zigbeeSubsystemStartDiscoveringDevices`, `zigbeeSubsystemStopDiscoveringDevices` and
`enableJoinThreadProc` in `services/device/core/src/subsystems/zigbee/zigbeeSubsystem.c`, with
`zigbeeEventHandlerDiscoveryRunning` of `zigbeeEventHandler.c`, as the steps that the code makes
atomic.  The counter of the discoveries is changed under a mutex.  When it leaves or reaches
zero, the network has to be opened or closed and the table of processed devices made or
destroyed; this is done after the mutex has been released, the opening in a thread of its own.

Every call of zhal and every creation of a thread succeeds.  The table of premature cluster
commands and the announced devices are left out: nothing here depends on them.  The decisions to
open or to close are numbered (`decisions` is not in the source), so that one can say which of
two is the earlier.
-/

namespace ZilkerSdk.Device.ZigbeeDiscovery

open Lib

/-! ## The steps -/

/-- The requests to zhal. -/
inductive JoinRequest where
  | enableJoin
  | disableJoin
deriving DecidableEq

/-- Where a discovery, from its start to its stop, or an enable-join thread stands.  What is still
to be done for a decision carries its number. -/
inductive Process where
  | makingTable (decision : Nat)
  | makingThread (decision : Nat)
  /-- the start has returned, the stop has not been called -/
  | discovering
  /-- an enable-join thread -/
  | joining (decision : Nat)
  | disabling (decision : Nat)
  | clearing (decision : Nat)
  /-- the stop has returned, or the thread has ended -/
  | finished
deriving DecidableEq

structure ZigbeeState where
  discoveringRefCount : Int
  /-- `devicesProcessed` is not NULL -/
  devicesProcessed : Bool
  lastJoinRequest : Option JoinRequest
  processes : List Process
  decisions : Nat

/-- A start, a stop of the discovery that a start has begun, and what they leave to be done. -/
inductive ZigbeeOp where
  | startDiscoveringDevices
  | makeTable (process : Nat)
  | makeThread (process : Nat)
  | enableJoin (process : Nat)
  | stopDiscoveringDevices (process : Nat)
  | disableJoin (process : Nat)
  | clearTable (process : Nat)
deriving DecidableEq

def ZigbeeState.moveTo (s : ZigbeeState) (i : Nat) (p : Process) : ZigbeeState :=
  { s with processes := s.processes.set i p }

def zigbeeStep (s : ZigbeeState) : ZigbeeOp → Option (ZigbeeState × Unit)
  | .startDiscoveringDevices =>
    if s.discoveringRefCount = 0 then
      some ({ s with
        discoveringRefCount := s.discoveringRefCount + 1
        processes := s.processes ++ [.makingTable (s.decisions + 1)]
        decisions := s.decisions + 1 }, ())
    else
      some ({ s with
        discoveringRefCount := s.discoveringRefCount + 1
        processes := s.processes ++ [.discovering] }, ())
  | .makeTable i =>
    match s.processes[i]? with
    -- a table that is there is not freed, only forgotten
    | some (.makingTable d) =>
      some ({ s.moveTo i (.makingThread d) with devicesProcessed := true }, ())
    | _ => none
  | .makeThread i =>
    match s.processes[i]? with
    | some (.makingThread d) =>
      some ({ s with processes := s.processes.set i .discovering ++ [.joining d] }, ())
    | _ => none
  | .enableJoin i =>
    match s.processes[i]? with
    | some (.joining _) =>
      some ({ s.moveTo i .finished with lastJoinRequest := some .enableJoin }, ())
    | _ => none
  | .stopDiscoveringDevices i =>
    match s.processes[i]? with
    | some .discovering =>
      if s.discoveringRefCount - 1 = 0 then
        some ({ s.moveTo i (.disabling (s.decisions + 1)) with
          discoveringRefCount := s.discoveringRefCount - 1
          decisions := s.decisions + 1 }, ())
      else
        some ({ s.moveTo i .finished with discoveringRefCount := s.discoveringRefCount - 1 }, ())
    | _ => none
  | .disableJoin i =>
    match s.processes[i]? with
    | some (.disabling d) =>
      some ({ s.moveTo i (.clearing d) with lastJoinRequest := some .disableJoin }, ())
    | _ => none
  | .clearTable i =>
    match s.processes[i]? with
    | some (.clearing _) => some ({ s.moveTo i .finished with devicesProcessed := false }, ())
    | _ => none

/-! ## What is still to be done -/

namespace Process

/-- The decision whose join request is still to be sent. -/
def pendingJoin : Process → Option Nat
  | .makingTable d | .makingThread d | .joining d | .disabling d => some d
  | _ => none

/-- The decision whose change of the table is still to be made. -/
def pendingTable : Process → Option Nat
  | .makingTable d | .disabling d | .clearing d => some d
  | _ => none

/-- A discovery that has been started and not been stopped. -/
def isOpen : Process → Bool
  | .makingTable _ | .makingThread _ | .discovering => true
  | _ => false

/-- Decisions to open have odd numbers, decisions to close have even ones. -/
def OfKind : Process → Prop
  | .makingTable d | .makingThread d | .joining d => d % 2 = 1
  | .disabling d | .clearing d => d % 2 = 0
  | _ => True

end Process

/-- What the newest decision is for has been done last. -/
def JoinDone (decisions : Nat) (last : Option JoinRequest) : Prop :=
  if decisions % 2 = 1 then last = some .enableJoin else last ≠ some .enableJoin

def TableDone (decisions : Nat) (devicesProcessed : Bool) : Prop :=
  devicesProcessed = true ↔ decisions % 2 = 1

/-- What holds between the steps. -/
structure ZigbeeInv (s : ZigbeeState) : Prop where
  counted : s.discoveringRefCount = s.processes.countP Process.isOpen
  parity : 0 < s.discoveringRefCount ↔ s.decisions % 2 = 1
  kinds : EachAt (fun _ p => p.OfKind) s.processes
  joins : Backlog Process.pendingJoin s.decisions
    (JoinDone s.decisions s.lastJoinRequest) s.processes
  tables : Backlog Process.pendingTable s.decisions (TableDone s.decisions s.devicesProcessed)
    s.processes

/-- A join request or a change of the table that is due to the newest decision is not made while
one that is due to an older decision is still to be made. -/
def MadeInTurn (s : ZigbeeState) : ZigbeeOp → Prop
  | .enableJoin i | .disableJoin i => ∀ p ∈ s.processes[i]?, ∀ d ∈ p.pendingJoin,
      InTurn Process.pendingJoin s.decisions s.processes d
  | .makeTable i | .clearTable i => ∀ p ∈ s.processes[i]?, ∀ d ∈ p.pendingTable,
      InTurn Process.pendingTable s.decisions s.processes d
  | _ => True

variable {s s' : ZigbeeState} {op : ZigbeeOp} {o : Unit}

/-! ## Steps in turn keep the invariant -/

section

variable (hinv : ZigbeeInv s)
include hinv

theorem ZigbeeInv.counted_moveTo {i : Nat} {p q : Process}
    (hp : s.processes[i]? = some p) (hopen : q.isOpen = p.isOpen) :
    s.discoveringRefCount = (s.processes.set i q).countP Process.isOpen := by
  have hcount := countP_update Process.isOpen hp q
  rw [hopen] at hcount
  rw [hinv.counted, Nat.add_right_cancel hcount]

theorem zigbeeInv_startDiscoveringDevices
    (h : zigbeeStep s .startDiscoveringDevices = some (s', o)) : ZigbeeInv s' := by
  obtain ⟨hcounted, hparity, hkinds, hjoins, htables⟩ := hinv
  simp only [zigbeeStep] at h
  split at h
  · -- the counter leaves zero: a decision to open
    rename_i hzero
    cases h
    have hodd : (s.decisions + 1) % 2 = 1 := by omega
    refine ⟨?_, ?_, hkinds.spawn hodd, hjoins.spawnDecide rfl, htables.spawnDecide rfl⟩
    · simp [hcounted, Process.isOpen]
    · simp [hzero, hodd]
  · cases h
    refine ⟨?_, ?_, hkinds.spawn trivial, hjoins.spawn rfl, htables.spawn rfl⟩
    · simp [hcounted, Process.isOpen]
    · have hpos : 0 < s.discoveringRefCount := by omega
      simp only [hparity.mp hpos, iff_true]
      omega

theorem zigbeeInv_stopDiscoveringDevices {i : Nat}
    (h : zigbeeStep s (.stopDiscoveringDevices i) = some (s', o)) : ZigbeeInv s' := by
  obtain ⟨hcounted, hparity, hkinds, hjoins, htables⟩ := hinv
  simp only [zigbeeStep] at h
  split at h
  · rename_i hp
    -- the discovery that is stopped is counted
    have hpos : 0 < s.discoveringRefCount := by
      have hcount : 0 < s.processes.countP Process.isOpen :=
        List.countP_pos_iff.mpr ⟨_, List.mem_of_getElem? hp, rfl⟩
      omega
    have hcount : ∀ q : Process, q.isOpen = false →
        ((s.processes.set i q).countP Process.isOpen : Int) = s.discoveringRefCount - 1 := by
      intro q hq
      have hcount := countP_update Process.isOpen hp q
      rw [hq] at hcount
      simp only [Process.isOpen, if_true, Bool.false_eq_true, if_false] at hcount
      omega
    split at h
    · -- the counter reaches zero: a decision to close
      rename_i hzero
      cases h
      have heven : (s.decisions + 1) % 2 = 0 := by omega
      refine ⟨(hcount _ rfl).symm, ?_, hkinds.update hp heven, hjoins.decide hp rfl,
        htables.decide hp rfl⟩
      simp [hzero, heven]
    · cases h
      refine ⟨(hcount _ rfl).symm, ?_, hkinds.update hp trivial, hjoins.keep hp rfl,
        htables.keep hp rfl⟩
      simp only [ZigbeeState.moveTo, hparity.mp hpos, iff_true]
      omega
  · cases h

/-- What every step in turn keeps. -/
theorem zigbeeStep_zigbeeInv (hop : MadeInTurn s op)
    (h : zigbeeStep s op = some (s', o)) : ZigbeeInv s' := by
  cases op
  case startDiscoveringDevices => exact zigbeeInv_startDiscoveringDevices hinv h
  case stopDiscoveringDevices i => exact zigbeeInv_stopDiscoveringDevices hinv h
  -- the others are about a process that stands where they expect it
  all_goals
    simp only [zigbeeStep] at h
    split at h
    case h_2 => cases h
    cases h
  next i _ d hp => -- `makeTable`
    have hodd : d % 2 = 1 := hinv.kinds i _ hp
    refine ⟨hinv.counted_moveTo hp rfl, hinv.parity, hinv.kinds.update hp hodd,
      hinv.joins.keep hp rfl, ?_⟩
    refine hinv.tables.carryOut hp rfl rfl (hop _ hp d rfl) fun hnewest => ?_
    simp [TableDone, ZigbeeState.moveTo, ← hnewest, hodd]
  next i _ d hp => -- `makeThread`
    have hodd : d % 2 = 1 := hinv.kinds i _ hp
    have hkinds : EachAt (fun _ p => p.OfKind) (s.processes.set i .discovering) :=
      hinv.kinds.update hp trivial
    have htables := hinv.tables.keep (b := .discovering) hp rfl
    refine ⟨?_, hinv.parity, hkinds.spawn hodd, hinv.joins.handOver hp rfl rfl rfl,
      htables.spawn rfl⟩
    rw [hinv.counted_moveTo (q := .discovering) hp rfl]
    simp [Process.isOpen]
  next i _ d hp => -- `enableJoin`
    have hodd : d % 2 = 1 := hinv.kinds i _ hp
    refine ⟨hinv.counted_moveTo hp rfl, hinv.parity, hinv.kinds.update hp trivial, ?_,
      hinv.tables.keep hp rfl⟩
    refine hinv.joins.carryOut hp rfl rfl (hop _ hp d rfl) fun hnewest => ?_
    simp [JoinDone, ZigbeeState.moveTo, ← hnewest, hodd]
  next i _ d hp => -- `disableJoin`
    have heven : d % 2 = 0 := hinv.kinds i _ hp
    refine ⟨hinv.counted_moveTo hp rfl, hinv.parity, hinv.kinds.update hp heven, ?_,
      hinv.tables.keep hp rfl⟩
    refine hinv.joins.carryOut hp rfl rfl (hop _ hp d rfl) fun hnewest => ?_
    simp [JoinDone, ZigbeeState.moveTo, ← hnewest, heven]
  next i _ d hp => -- `clearTable`
    have heven : d % 2 = 0 := hinv.kinds i _ hp
    refine ⟨hinv.counted_moveTo hp rfl, hinv.parity, hinv.kinds.update hp trivial,
      hinv.joins.keep hp rfl, ?_⟩
    refine hinv.tables.carryOut hp rfl rfl (hop _ hp d rfl) fun hnewest => ?_
    simp [TableDone, ZigbeeState.moveTo, ← hnewest, heven]

end

/-! ## Runs -/

/-- No start, stop or enable-join thread is in progress. -/
def Quiet (s : ZigbeeState) : Prop := ∀ p ∈ s.processes, p = .discovering ∨ p = .finished

/-- The network is open for joining, and the table is there, exactly during discovery. -/
structure JoinAgrees (s : ZigbeeState) : Prop where
  opened : 0 < s.discoveringRefCount → s.lastJoinRequest = some .enableJoin
  closed : s.discoveringRefCount = 0 →
    s.lastJoinRequest = none ∨ s.lastJoinRequest = some .disableJoin
  table : s.devicesProcessed = true ↔ 0 < s.discoveringRefCount

theorem ZigbeeInv.joinAgrees (hinv : ZigbeeInv s) (hquiet : Quiet s) : JoinAgrees s := by
  have hjoin : JoinDone s.decisions s.lastJoinRequest := by
    apply hinv.joins.idle
    intro p hp
    rcases hquiet p hp with rfl | rfl <;> rfl
  have htable : TableDone s.decisions s.devicesProcessed := by
    apply hinv.tables.idle
    intro p hp
    rcases hquiet p hp with rfl | rfl <;> rfl
  unfold JoinDone at hjoin
  refine ⟨?_, ?_, htable.trans hinv.parity.symm⟩
  · intro hpos
    rwa [if_pos (hinv.parity.mp hpos)] at hjoin
  · intro hzero
    have heven : ¬ s.decisions % 2 = 1 := mt hinv.parity.mpr (by omega)
    rw [if_neg heven] at hjoin
    cases hlast : s.lastJoinRequest with
    | none => exact .inl rfl
    | some request =>
      cases request with
      | enableJoin => exact absurd hlast hjoin
      | disableJoin => exact .inr rfl

/-- No discovery has been started. -/
def noDiscovery : ZigbeeState := ⟨0, false, none, [], 0⟩

theorem zigbeeInv_noDiscovery : ZigbeeInv noDiscovery where
  counted := rfl
  parity := by decide
  kinds := eachAt_nil
  joins := backlog_nil (by simp [JoinDone, noDiscovery])
  tables := backlog_nil (by simp [TableDone, noDiscovery])

/-- In every run in which join requests and changes of the table are made in turn, the network is
open exactly during discovery whenever nothing is in progress. -/
theorem join_agrees_of_inTurn (ops : List ZigbeeOp) (s : ZigbeeState) (outs : List Unit)
    (hturn : Guarded zigbeeStep MadeInTurn noDiscovery ops)
    (hrun : run zigbeeStep noDiscovery ops = some (s, outs)) (hquiet : Quiet s) : JoinAgrees s := by
  have hinv : ZigbeeInv s := run_invariant
    (fun _ _ _ _ hinv hop h => zigbeeStep_zigbeeInv hinv hop h) zigbeeInv_noDiscovery hturn hrun
  exact hinv.joinAgrees hquiet

/-! ## Three runs -/

instance (s : ZigbeeState) (op : ZigbeeOp) : Decidable (MadeInTurn s op) := by
  delta MadeInTurn
  split <;> infer_instance

instance (s : ZigbeeState) : Decidable (Quiet s) :=
  inferInstanceAs (Decidable (∀ p ∈ s.processes, _ ∨ _))

/-- A discovery from its start to its stop, with nothing in between. -/
def orderlyDiscovery : List ZigbeeOp :=
  [.startDiscoveringDevices, .makeTable 0, .makeThread 0, .enableJoin 1, .stopDiscoveringDevices 0,
    .disableJoin 0, .clearTable 0]

theorem join_agrees_orderlyDiscovery : ∃ s outs,
    run zigbeeStep noDiscovery orderlyDiscovery = some (s, outs) ∧ Quiet s ∧ JoinAgrees s := by
  refine ⟨_, _, rfl, by decide +kernel, ?_⟩
  exact join_agrees_of_inTurn orderlyDiscovery _ _ (by decide +kernel) rfl (by decide +kernel)

/-- The stop overtakes the enable-join thread of its own start. -/
def lateEnable : List ZigbeeOp :=
  [.startDiscoveringDevices, .makeTable 0, .makeThread 0, .stopDiscoveringDevices 0, .disableJoin 0,
    .clearTable 0, .enableJoin 1]

/-- A second start falls between the decision of a stop and what it does. -/
def lateStop : List ZigbeeOp :=
  [.startDiscoveringDevices, .makeTable 0, .makeThread 0, .enableJoin 1, .stopDiscoveringDevices 0,
    .startDiscoveringDevices, .makeTable 2, .makeThread 2, .enableJoin 3, .disableJoin 0,
    .clearTable 0]

/-- The network can stay open when no discovery is running, and it can be closed, and the table be
missing, when one is. -/
theorem join_disagrees :
    (∃ s outs, run zigbeeStep noDiscovery lateEnable = some (s, outs) ∧ Quiet s ∧
      s.discoveringRefCount = 0 ∧ s.lastJoinRequest = some .enableJoin ∧ ¬ JoinAgrees s) ∧
    ∃ s outs, run zigbeeStep noDiscovery lateStop = some (s, outs) ∧ Quiet s ∧
      s.discoveringRefCount = 1 ∧ s.lastJoinRequest = some .disableJoin ∧
      s.devicesProcessed = false ∧ ¬ JoinAgrees s := by
  refine ⟨⟨_, _, rfl, by decide +kernel, rfl, rfl, fun h => ?_⟩,
    _, _, rfl, by decide +kernel, rfl, rfl, rfl, fun h => ?_⟩
  · exact absurd (h.closed rfl) (by decide +kernel)
  · exact absurd (h.opened (by decide +kernel)) (by decide +kernel)

end ZilkerSdk.Device.ZigbeeDiscovery
