import ZilkerSdk.Watchdog.Model

/-!
# The start-up sequence

Model of the rounds in which `procMgr.c` starts all services: `performStartupSequence`,
called for start-all and, after all services were stopped, for restart-all; the
acknowledgements of the services; the delayed task that gives up after five minutes; and
`allAcksReceived`, which finalizes the sequence.

`SERVICE_MTX` is held except while the sequence waits for the single-phase services,
while a service that is stopped is waited for, and between the rounds.  The wait for the
single-phase services ends on the signal of `acknowledgeServiceStarted` or after a
minute, so the step that ends it is always enabled.  The delayed task has the handle
`monitorAckTask`; its callback clears the handle in one step and finalizes the sequence in
another, and cancelling a task whose callback runs has no effect.

A `Round` records what the services and the watchdog did since the sequence began.

The services are a plain list: their number is no positive multiple of 65536, for which the
16-bit counter of the list would be zero and `linkedListIterate` would visit none.
-/

namespace ZilkerSdk.Watchdog.Startup

open Lib List

/-! ## Services -/

/-- `serviceDefinition` with the fields that the start-up sequence looks at. -/
structure ManagedService extends ServiceDefinition where
  serviceName : String
  autoStart : Bool
  singlePhaseStartup : Bool
  expectStartupAck : Bool
  isJavaService : Bool
  serviceIpcPort : Nat
  deriving DecidableEq

/-- The service is one that has to acknowledge. -/
def ManagedService.expected (curr : ManagedService) : Bool :=
  (curr.autoStart || curr.isJavaService) && curr.expectStartupAck

/-- The test of `countNonSinglePhaseIterateFunc`. -/
def ManagedService.unacknowledged (curr : ManagedService) : Bool :=
  curr.expected && decide (curr.lastActReceivedTime = 0)

/-- The counter is a `uint16_t`. -/
def internalCountServicesToBeAcknowledged (services : List ManagedService) : Nat :=
  services.countP ManagedService.unacknowledged % 2 ^ 16

/-- What `fork` returns for each service that is started, and when. -/
abbrev Forks := String → Pid × Int

def ManagedService.start (fork : Forks) (curr : ManagedService) : ManagedService :=
  { curr with
    toServiceDefinition :=
      (Watchdog.executeStartOperation (fork curr.serviceName).1 (fork curr.serviceName).2
        curr.toServiceDefinition).1 }

/-- `executeStartOperation` for the services that pass the filter. -/
def executeStartOperation (fork : Forks) (passes : ManagedService → Bool)
    (services : List ManagedService) : List ManagedService :=
  services.map fun curr => if passes curr then curr.start fork else curr

def singlePhaseFilter (curr : ManagedService) : Bool := curr.singlePhaseStartup

def nonSinglePhaseFilter (curr : ManagedService) : Bool :=
  !curr.singlePhaseStartup && curr.autoStart

def singleProcFilter (name : String) (curr : ManagedService) : Bool := curr.serviceName == name

/-- The services that are started once the single-phase services are ready. -/
def startRemaining (fork : Forks) (names : Option (List String)) (services : List ManagedService) :
    List ManagedService :=
  match names with
  | none => executeStartOperation fork nonSinglePhaseFilter services
  | some names => names.foldl (fun services name =>
      executeStartOperation fork (singleProcFilter name) services) services

def getServiceNamesToBounce (services : List ManagedService) : List String :=
  (services.filter fun curr => decide (curr.currentPid > 0) || curr.autoStart).map
    ManagedService.serviceName

def ignoreAllProcDeaths (services : List ManagedService) : List ManagedService :=
  services.map fun curr =>
    if curr.currentPid > 0 then { curr with tempIgoreDeath := true } else curr

/-- The flags of a restart-all. -/
def restartAllAction : Operation where
  resetAck := true
  forceKill := false
  ignoreDeath := true
  dumpCore := false
  thenStart := false

def ManagedService.mark (curr : ManagedService) : ManagedService :=
  { curr with toServiceDefinition := markForStop restartAllAction curr.toServiceDefinition }

def ManagedService.die (context : DeathContext) (pid : Pid) (curr : ManagedService) :
    ManagedService :=
  { curr with toServiceDefinition := (handleDeadChild context pid curr.toServiceDefinition).1 }

def ManagedService.acknowledge (port : Nat) (token : Option String) (now : Int)
    (curr : ManagedService) : ManagedService :=
  { curr with
    lastActReceivedTime := now
    serviceIpcPort := port
    shutdownToken := token.or curr.shutdownToken }

/-- Change the member that `linkedListFind` finds. -/
def onFirst {α : Type} (found : α → Bool) (change : α → α) : List α → List α
  | [] => []
  | x :: xs => if found x then change x :: xs else x :: onFirst found change xs

/-- The ports of the services that are told to initialize. -/
def ipcPorts (services : List ManagedService) : List Nat :=
  (services.filter fun curr => decide (curr.serviceIpcPort > 0)).map ManagedService.serviceIpcPort

/-! ## Rounds -/

/-- The effects of `allAcksReceived`, which end with one `ALL_SERVICES_STARTED` event. -/
structure Finalization where
  /-- `managerList` at that time. -/
  services : List ManagedService
  /-- The services that had acknowledged in the round. -/
  acknowledged : List String
  /-- The ports `startInitialization` was sent to. -/
  initialized : List Nat
  deriving DecidableEq

/-- What happened since `performStartupSequence` was called. -/
structure Round where
  acknowledged : List String
  /-- The five minutes have passed. -/
  expired : Bool
  finalizations : List Finalization
  /-- The services a `SOME_SERVICES_STARTED` event was sent for. -/
  someServicesStarted : List String
  deriving DecidableEq

def Round.fresh : Round := ⟨[], false, [], []⟩

/-- The round was finalized once; unless the time had passed, every service that is expected to
acknowledge had done so in the round. -/
def Round.FinalizedOnce (round : Round) : Prop :=
  ∃ finalization, round.finalizations = [finalization] ∧
    finalization.initialized = ipcPorts finalization.services ∧
    (round.expired = false → ∀ service ∈ finalization.services, service.expected = true →
      service.lastActReceivedTime ≠ 0 ∧ service.serviceName ∈ finalization.acknowledged)

/-! ## The state -/

/-- The delayed task that gives up. -/
inductive Timer where
  | none
  | waiting
  /-- `monitorAckDelayCallback` was called. -/
  | fired
  /-- It has cleared the handle. -/
  | late
  deriving DecidableEq

def cancelDelayTask : Timer → Timer
  | .waiting => .none
  | timer => timer

inductive Pc where
  /-- No operation on all services is going on. -/
  | idle
  /-- The first services of the list are stopped; is the last of them being waited for? -/
  | stopping (names : List String) (stopped : Nat) (waiting : Bool)
  /-- Waiting for the single-phase services. -/
  | singlePhase (names : Option (List String))
  deriving DecidableEq

/-- `SERVICE_MTX` is free. -/
def Pc.unlocked : Pc → Bool
  | .stopping _ _ waiting => waiting
  | .idle => true
  | .singlePhase _ => true

structure State where
  managerList : List ManagedService
  /-- A handle is held. -/
  monitorAckTask : Bool
  timer : Timer
  startupSequenceFinalized : Bool
  pc : Pc
  /-- The last round comes first. -/
  rounds : List Round
  deriving DecidableEq

/-- The watchdog has loaded its configuration. -/
def boot (services : List ManagedService) : State := ⟨services, false, .none, false, .idle, []⟩

/-- No operation is going on and nothing is left of its timer. -/
def State.Complete (s : State) : Prop := s.pc = .idle ∧ s.timer = .none

instance (s : State) : Decidable s.Complete :=
  inferInstanceAs (Decidable (s.pc = .idle ∧ s.timer = .none))

def State.record (s : State) (change : Round → Round) : State :=
  { s with rounds := s.rounds.modifyHead change }

/-! ## The functions -/

/-- `allAcksReceived`; giving up makes no difference. -/
def allAcksReceived (s : State) : State :=
  if s.startupSequenceFinalized then s
  else
    { s with
      startupSequenceFinalized := true
      rounds := s.rounds.modifyHead fun round =>
        { round with
          finalizations :=
            ⟨s.managerList, round.acknowledged, ipcPorts s.managerList⟩ :: round.finalizations } }

def Round.note (name : String) (round : Round) : Round :=
  { round with acknowledged := name :: round.acknowledged }

/-- The acknowledgement is stored. -/
def noteAck (name : String) (port : Nat) (token : Option String) (now : Int) (s : State) : State :=
  { s with
    managerList := onFirst (singleProcFilter name) (ManagedService.acknowledge port token now)
      s.managerList
    rounds := s.rounds.modifyHead (Round.note name) }

/-- The rest of `acknowledgeServiceStarted`, once the acknowledgement is stored. -/
def afterAck (name : String) (s : State) : State :=
  if internalCountServicesToBeAcknowledged s.managerList = 0 then
    if s.monitorAckTask then
      allAcksReceived { s with monitorAckTask := false, timer := cancelDelayTask s.timer }
    else
      s.record fun round => { round with someServicesStarted := name :: round.someServicesStarted }
  else s

def acknowledgeServiceStarted (name : String) (port : Nat) (token : Option String) (now : Int)
    (s : State) : State :=
  if s.managerList.any (singleProcFilter name) then afterAck name (noteAck name port token now s)
  else s

def startMonitorAckThread (s : State) : State :=
  if s.monitorAckTask then s else { s with monitorAckTask := true, timer := .waiting }

/-- `performStartupSequence` up to its wait. -/
def performStartupSequence (fork : Forks) (names : Option (List String)) (s : State) : State :=
  startMonitorAckThread
    { s with
      managerList := executeStartOperation fork singlePhaseFilter s.managerList
      pc := .singlePhase names
      rounds := Round.fresh :: s.rounds }

/-- `executeStopOperation` for one service. -/
def stopService (names : List String) (n : Nat) (curr : ManagedService) (s : State) : State :=
  if curr.currentPid ≤ 0 then { s with pc := .stopping names (n + 1) false }
  else
    { s with
      managerList := s.managerList.modify n ManagedService.mark
      pc := .stopping names (n + 1) true }

/-! ## Steps -/

inductive Event where
  /-- `operationOnAllProcesses(START_PROCESS_ACTION)`, or the watchdog itself starts. -/
  | startAll (fork : Forks)
  /-- `operationOnAllProcesses(RESTART_PROCESS_ACTION)`. -/
  | restartAll
  /-- The next service is stopped. -/
  | stop
  /-- All are stopped; if the sleep is interrupted, the restart is cancelled. -/
  | restart (slept : Bool) (fork : Forks)
  /-- The wait for the single-phase services ends. -/
  | startRemaining (fork : Forks)
  | died (context : DeathContext) (pid : Pid)
  | ack (name : String) (port : Nat) (token : Option String) (now : Int)
  /-- The five minutes have passed. -/
  | expire
  /-- `monitorAckDelayCallback` clears the handle, -/
  | clearHandle
  /-- and then gets `SERVICE_MTX`. -/
  | giveUp

/-- Acknowledgements come from services that were started in some round. -/
def step (s : State) : Event → Option (State × Unit)
  | .startAll fork => if s.Complete then some (performStartupSequence fork none s, ()) else none
  | .restartAll =>
    if s.Complete then
      some ({ s with
        managerList := ignoreAllProcDeaths s.managerList
        pc := .stopping (getServiceNamesToBounce s.managerList) 0 false }, ())
    else none
  | .stop =>
    match s.pc with
    | .stopping names n _ => (s.managerList[n]?).map fun curr => (stopService names n curr s, ())
    | _ => none
  | .restart slept fork =>
    match s.pc with
    | .stopping names n _ =>
      if n = s.managerList.length then
        if slept then some (performStartupSequence fork (some names) s, ())
        else some ({ s with pc := .idle }, ())
      else none
    | _ => none
  | .startRemaining fork =>
    match s.pc with
    | .singlePhase names =>
      some ({ s with managerList := startRemaining fork names s.managerList, pc := .idle }, ())
    | _ => none
  | .died context pid =>
    if s.pc.unlocked then
      some ({ s with
        managerList := onFirst (fun curr => curr.currentPid == pid)
          (ManagedService.die context pid) s.managerList }, ())
    else none
  | .ack name port token now =>
    if s.pc.unlocked = true ∧ s.rounds ≠ [] then
      some (acknowledgeServiceStarted name port token now s, ())
    else none
  | .expire =>
    if s.timer = .waiting then
      some ({ s with
        timer := .fired
        rounds := s.rounds.modifyHead fun round => { round with expired := true } }, ())
    else none
  | .clearHandle =>
    if s.timer = .fired then some ({ s with monitorAckTask := false, timer := .late }, ()) else none
  | .giveUp =>
    if s.pc.unlocked = true ∧ s.timer = .late then
      some (allAcksReceived { s with timer := .none }, ())
    else none

/-! ## Acknowledgement times -/

/-- Only the services named have acknowledged since they were started. -/
def Tracks (acknowledged : List String) (services : List ManagedService) : Prop :=
  ∀ service ∈ services, service.lastActReceivedTime ≠ 0 → service.serviceName ∈ acknowledged

/-- A change of a service that is no acknowledgement. -/
def Keeps (change : ManagedService → ManagedService) : Prop :=
  ∀ curr, (change curr).serviceName = curr.serviceName ∧
    ((change curr).lastActReceivedTime = curr.lastActReceivedTime ∨
      (change curr).lastActReceivedTime = 0)

theorem startProcess_lastAct (pid : Pid) (now : Int) (procDef : ServiceDefinition) :
    (startProcess pid now procDef).lastActReceivedTime = 0 := by
  unfold startProcess
  split <;> rfl

theorem countRestart_lastAct (now : Int) (target : ServiceDefinition) :
    (countRestart now target).1.lastActReceivedTime = target.lastActReceivedTime := by
  fun_cases countRestart now target <;> rfl

theorem restartDeadChild_lastAct (context : DeathContext) (target : ServiceDefinition) :
    (restartDeadChild context target).1.lastActReceivedTime = target.lastActReceivedTime ∨
      (restartDeadChild context target).1.lastActReceivedTime = 0 := by
  unfold restartDeadChild
  split
  · exact .inl rfl
  · have hcount := countRestart_lastAct context.now target
    split
    · rename_i counted heq
      rw [heq] at hcount
      exact .inl hcount
    · exact .inr (startProcess_lastAct _ _ _)

theorem keeps_start (fork : Forks) : Keeps (ManagedService.start fork) := by
  intro curr
  refine ⟨rfl, ?_⟩
  unfold ManagedService.start Watchdog.executeStartOperation
  split
  · exact .inl rfl
  · split
    · exact .inl rfl
    · exact .inr (startProcess_lastAct _ _ _)

theorem keeps_mark : Keeps ManagedService.mark := fun _ => ⟨rfl, .inr rfl⟩

theorem keeps_die (context : DeathContext) (pid : Pid) :
    Keeps (ManagedService.die context pid) := by
  refine fun curr => ⟨rfl, ?_⟩
  unfold ManagedService.die handleDeadChild
  split
  · unfold handleDeath
    dsimp only
    split
    · exact .inl rfl
    · split
      · exact .inl rfl
      · exact restartDeadChild_lastAct _ _
  · exact .inl rfl

variable {change : ManagedService → ManagedService}

theorem Keeps.ite (h : Keeps change) (passes : ManagedService → Prop) [DecidablePred passes] :
    Keeps fun curr => if passes curr then change curr else curr := by
  intro curr
  dsimp only
  split
  · exact h curr
  · exact ⟨rfl, .inl rfl⟩

section

variable {acknowledged : List String} {services : List ManagedService}

section

variable (h : Tracks acknowledged services)
include h

theorem Tracks.changed {services' : List ManagedService} (hkeeps : Keeps change)
    (hmem : ∀ service ∈ services', service ∈ services ∨ ∃ curr ∈ services, change curr = service) :
    Tracks acknowledged services' := by
  intro service hservice hacked
  obtain hold | ⟨curr, hcurr, rfl⟩ := hmem service hservice
  · exact h service hold hacked
  obtain ⟨hname, hsame | hreset⟩ := hkeeps curr
  · rw [hname]
    exact h curr hcurr (hsame ▸ hacked)
  · exact absurd hreset hacked

theorem Tracks.map (hkeeps : Keeps change) : Tracks acknowledged (services.map change) :=
  h.changed hkeeps fun _ hmem => .inr (mem_map.mp hmem)

theorem Tracks.executeStartOperation (fork : Forks) (passes : ManagedService → Bool) :
    Tracks acknowledged (executeStartOperation fork passes services) :=
  h.map ((keeps_start fork).ite fun curr => passes curr = true)

theorem Tracks.startRemaining (fork : Forks) (names : Option (List String)) :
    Tracks acknowledged (startRemaining fork names services) := by
  cases names with
  | none => exact h.executeStartOperation fork _
  | some names =>
    induction names generalizing services with
    | nil => exact h
    | cons name names ih => exact ih (h.executeStartOperation fork _)

theorem Tracks.ignoreAllProcDeaths : Tracks acknowledged (ignoreAllProcDeaths services) := by
  have hkeeps : Keeps fun curr => { curr with tempIgoreDeath := true } := fun _ => ⟨rfl, .inl rfl⟩
  exact h.map (hkeeps.ite fun curr => curr.currentPid > 0)

theorem Tracks.modify (hkeeps : Keeps change) (n : Nat) :
    Tracks acknowledged (services.modify n change) := by
  refine h.changed hkeeps fun service hmem => ?_
  obtain ⟨i, hi⟩ := mem_iff_getElem?.mp hmem
  rw [getElem?_modify] at hi
  obtain ⟨curr, hcurr, rfl⟩ := Option.map_eq_some_iff.mp hi
  have hold := mem_of_getElem? hcurr
  split
  · exact .inr ⟨curr, hold, rfl⟩
  · exact .inl hold

end

theorem mem_onFirst {α : Type} {found : α → Bool} {change : α → α} {xs : List α} {y : α}
    (h : y ∈ onFirst found change xs) : y ∈ xs ∨ ∃ x ∈ xs, found x = true ∧ change x = y := by
  induction xs with
  | nil => cases h
  | cons x xs ih =>
    unfold onFirst at h
    split at h
    · rename_i hfound
      obtain rfl | hrest := mem_cons.mp h
      · exact .inr ⟨x, mem_cons_self, hfound, rfl⟩
      · exact .inl (mem_cons_of_mem _ hrest)
    · obtain rfl | hrest := mem_cons.mp h
      · exact .inl mem_cons_self
      · obtain hold | ⟨x', hx', hchanged⟩ := ih hrest
        · exact .inl (mem_cons_of_mem _ hold)
        · exact .inr ⟨x', mem_cons_of_mem _ hx', hchanged⟩

theorem Tracks.onFirst (h : Tracks acknowledged services) (hkeeps : Keeps change)
    (found : ManagedService → Bool) : Tracks acknowledged (onFirst found change services) := by
  refine h.changed hkeeps fun service hmem => ?_
  obtain hold | ⟨curr, hcurr, -, hchanged⟩ := mem_onFirst hmem
  · exact .inl hold
  · exact .inr ⟨curr, hcurr, hchanged⟩

theorem Tracks.acknowledge (h : Tracks acknowledged services) (name : String) (port : Nat)
    (token : Option String) (now : Int) :
    Tracks (name :: acknowledged)
      (Startup.onFirst (singleProcFilter name) (ManagedService.acknowledge port token now)
        services) := by
  intro service hmem hacked
  obtain hold | ⟨curr, -, hname, rfl⟩ := mem_onFirst hmem
  · exact mem_cons_of_mem _ (h service hold hacked)
  · rw [show (curr.acknowledge port token now).serviceName = name from eq_of_beq hname]
    exact mem_cons_self

end

/-! ## What a step keeps -/

/-- A round is begun only while the start-up sequence has never been finalized, and an
acknowledgement does not leave a positive multiple of 65536 services unacknowledged. -/
def OnTime (s : State) : Event → Prop
  | .startAll _ => s.startupSequenceFinalized = false
  | .restart slept _ => slept = true → s.startupSequenceFinalized = false
  | .ack name port token now =>
    s.managerList.any (singleProcFilter name) = true →
      s.startupSequenceFinalized = false → s.timer = .waiting →
      (noteAck name port token now s).managerList.countP ManagedService.unacknowledged % 2 ^ 16 =
        0 →
      (noteAck name port token now s).managerList.countP ManagedService.unacknowledged = 0
  | _ => True

/-- Services are being stopped. -/
def Pc.stops : Pc → Bool
  | .stopping _ _ _ => true
  | .idle => false
  | .singlePhase _ => false

/-- Before the first round, in the first round until it is finalized, and ever after. -/
inductive Phase (s : State) : Prop
  | before (hrounds : s.rounds = []) (hflag : s.startupSequenceFinalized = false)
      (hhandle : s.monitorAckTask = false) (htimer : s.timer = .none)
      (hacks : Tracks [] s.managerList)
  | first (round : Round) (hrounds : s.rounds = [round])
      (hflag : s.startupSequenceFinalized = false) (hfinal : round.finalizations = [])
      (hacks : Tracks round.acknowledged s.managerList) (hpc : s.pc.stops = false)
      (hhandle : s.timer = .waiting → s.monitorAckTask = true)
      (htimer : (s.timer = .waiting ∧ round.expired = false) ∨
        (s.timer ≠ .none ∧ s.timer ≠ .waiting ∧ round.expired = true))
  | finalized (round : Round) (past : List Round) (hrounds : s.rounds = round :: past)
      (hflag : s.startupSequenceFinalized = true)
      (htimer : s.timer = .waiting → round.finalizations = [])

/-- Once the sequence is finalized, every round was finalized once. -/
def OnceSoFar (s : State) : Prop :=
  s.startupSequenceFinalized = true → ∀ round ∈ s.rounds, round.FinalizedOnce

section

variable {s s' : State} {event : Event}

theorem onceSoFar_of_not (h : s.startupSequenceFinalized = false) : OnceSoFar s := by
  intro hflag
  rw [h] at hflag
  cases hflag

variable {round : Round}

theorem Round.not_finalizedOnce (h : round.finalizations = []) : ¬ round.FinalizedOnce := by
  rintro ⟨finalization, hone, -⟩
  rw [h] at hone
  cases hone

/-- A step that changes nothing but the services and where it stands. -/
theorem Phase.services (h : Phase s) {services : List ManagedService} {pc : Pc}
    (hpc : pc.stops = true → s.pc.stops = true ∨ s.timer = .none)
    (hacks : ∀ {acknowledged}, Tracks acknowledged s.managerList → Tracks acknowledged services) :
    Phase { s with managerList := services, pc := pc } ∧
      (OnceSoFar { s with managerList := services, pc := pc } ↔ OnceSoFar s ∧ True) := by
  refine ⟨?_, (and_iff_left trivial).symm⟩
  cases h with
  | before hr hf hh ht ha => exact .before hr hf hh ht (hacks ha)
  | first round hr hf hfinal ha hp hh ht =>
    refine .first round hr hf hfinal (hacks ha) (Bool.eq_false_iff.mpr fun hstops => ?_) hh ht
    -- the timer of the round is there, so no stop can begin
    obtain hs | hn := hpc hstops
    · cases hp.symm.trans hs
    · simp [hn] at ht
  | finalized round past hr hf ht => exact .finalized round past hr hf ht

/-- A round that begins is the first one, or it is begun too late to be finalized. -/
theorem Phase.begin (h : Phase s) (hready : s.timer = .none ∨ s.pc.stops = true) (fork : Forks)
    (names : Option (List String)) :
    Phase (performStartupSequence fork names s) ∧
      (OnceSoFar (performStartupSequence fork names s) ↔
        OnceSoFar s ∧ s.startupSequenceFinalized = false) := by
  cases h with
  | before hr hf hh ht ha =>
    have hbegun : performStartupSequence fork names s =
        { s with
          managerList := executeStartOperation fork singlePhaseFilter s.managerList
          monitorAckTask := true
          timer := .waiting
          pc := .singlePhase names
          rounds := [Round.fresh] } := by
      unfold performStartupSequence startMonitorAckThread
      rw [hh, hr]
      rfl
    rw [hbegun]
    refine ⟨.first Round.fresh rfl hf rfl (ha.executeStartOperation fork _) rfl (fun _ => rfl)
      (.inl ⟨rfl, rfl⟩), ?_⟩
    exact iff_of_true (onceSoFar_of_not hf) ⟨onceSoFar_of_not hf, hf⟩
  | first round hr hf hfinal ha hp hh ht =>
    -- no round begins during the first one: its timer is there and nothing is being stopped
    obtain hn | hs := hready
    · simp [hn] at ht
    · cases hp.symm.trans hs
  | finalized round past hr hf ht =>
    -- the flag is still set by an earlier round, and this one has not been finalized
    have hrounds : (performStartupSequence fork names s).rounds = Round.fresh :: s.rounds := by
      unfold performStartupSequence startMonitorAckThread
      split <;> rfl
    have hflag : (performStartupSequence fork names s).startupSequenceFinalized = true := by
      unfold performStartupSequence startMonitorAckThread
      split <;> exact hf
    refine ⟨.finalized Round.fresh s.rounds hrounds hflag fun _ => rfl, iff_of_false ?_ ?_⟩
    · intro honce
      exact Round.not_finalizedOnce rfl (honce hflag Round.fresh (hrounds ▸ mem_cons_self))
    · intro hboth
      rw [hf] at hboth
      cases hboth.2

/-! ### Acknowledgements -/

/-- No service is left unacknowledged exactly if every expected one has acknowledged. -/
theorem Tracks.countP_eq_zero_iff {acknowledged : List String} {services : List ManagedService}
    (h : Tracks acknowledged services) :
    services.countP ManagedService.unacknowledged = 0 ↔
      ∀ service ∈ services, service.expected = true →
        service.lastActReceivedTime ≠ 0 ∧ service.serviceName ∈ acknowledged := by
  rw [countP_eq_zero]
  refine forall₂_congr fun service hmem => ?_
  unfold ManagedService.unacknowledged
  rw [Bool.and_eq_true, decide_eq_true_iff, not_and]
  refine forall_congr' fun _ =>
    ⟨fun hacked => ⟨hacked, h service hmem hacked⟩, fun hboth => hboth.1⟩

/-- The acknowledgement that finalizes the first round does so in time, or not. -/
theorem Phase.finalize (hrounds : s.rounds = [round]) (hflag : s.startupSequenceFinalized = false)
    (hfinal : round.finalizations = []) (hacks : Tracks round.acknowledged s.managerList)
    (htimer : s.timer ≠ .waiting) :
    Phase (allAcksReceived s) ∧
      (OnceSoFar (allAcksReceived s) ↔
        (round.expired = false → s.managerList.countP ManagedService.unacknowledged = 0)) := by
  have hdone : allAcksReceived s =
      { s with
        startupSequenceFinalized := true
        rounds := [{ round with
          finalizations := [⟨s.managerList, round.acknowledged, ipcPorts s.managerList⟩] }] } := by
    unfold allAcksReceived
    rw [if_neg (by rw [hflag]; exact Bool.false_ne_true), hrounds, modifyHead_cons, hfinal]
  rw [hdone, hacks.countP_eq_zero_iff]
  refine ⟨.finalized _ [] rfl rfl fun hw => absurd hw htimer, ⟨fun honce => ?_, fun hall => ?_⟩⟩
  · obtain ⟨finalization, hone, -, hin⟩ := honce rfl _ mem_cons_self
    obtain rfl := singleton_inj.mp hone
    exact hin
  · intro _ round' hmem
    obtain rfl := mem_singleton.mp hmem
    exact ⟨_, rfl, rfl, hall⟩

theorem cancelDelayTask_ne_waiting (timer : Timer) : cancelDelayTask timer ≠ .waiting := by
  cases timer <;> exact Timer.noConfusion

/-- What the rounds look like when the sequence was finalized before: nothing happens to the
finalizations. -/
theorem acknowledgeServiceStarted_of_finalized (name : String) (port : Nat) (token : Option String)
    (now : Int) (hflag : s.startupSequenceFinalized = true) :
    ∃ change : Round → Round,
      (∀ round, (change round).finalizations = round.finalizations ∧
        (change round).expired = round.expired) ∧
      (acknowledgeServiceStarted name port token now s).rounds = s.rounds.modifyHead change ∧
      (acknowledgeServiceStarted name port token now s).startupSequenceFinalized = true ∧
      ((acknowledgeServiceStarted name port token now s).timer = .waiting →
        s.timer = .waiting) := by
  unfold acknowledgeServiceStarted
  split
  · unfold afterAck
    split
    · split
      · unfold allAcksReceived
        rw [if_pos
          (show (noteAck name port token now s).startupSequenceFinalized = true from hflag)]
        refine ⟨Round.note name, fun _ => ⟨rfl, rfl⟩, rfl, hflag, fun hw => ?_⟩
        exact absurd hw (cancelDelayTask_ne_waiting _)
      · refine ⟨fun round => { round.note name with
            someServicesStarted := name :: round.someServicesStarted },
          fun _ => ⟨rfl, rfl⟩, ?_, hflag, id⟩
        unfold State.record noteAck
        cases s.rounds <;> rfl
    · exact ⟨Round.note name, fun _ => ⟨rfl, rfl⟩, rfl, hflag, id⟩
  · exact ⟨id, fun _ => ⟨rfl, rfl⟩, by cases s.rounds <;> rfl, hflag, id⟩

theorem forall_finalizedOnce_modifyHead {change : Round → Round}
    (hchange : ∀ round, (change round).finalizations = round.finalizations ∧
      (change round).expired = round.expired) (rounds : List Round) :
    (∀ round ∈ rounds.modifyHead change, round.FinalizedOnce) ↔
      ∀ round ∈ rounds, round.FinalizedOnce := by
  cases rounds with
  | nil => rfl
  | cons round past =>
    rw [modifyHead_cons, forall_mem_cons, forall_mem_cons, Round.FinalizedOnce,
      (hchange round).1, (hchange round).2]
    rfl

variable (h : Phase s)
include h

theorem Phase.acknowledge (hrounds : s.rounds ≠ []) (name : String) (port : Nat)
    (token : Option String) (now : Int) :
    Phase (acknowledgeServiceStarted name port token now s) ∧
      (OnceSoFar (acknowledgeServiceStarted name port token now s) ↔
        OnceSoFar s ∧ OnTime s (.ack name port token now)) := by
  cases h with
  | before hr _ _ _ _ => exact absurd hr hrounds
  | first round hr hf hfinal ha hp hh ht =>
    have hbefore := onceSoFar_of_not hf
    rw [and_iff_right hbefore]
    have hnoted : (noteAck name port token now s).rounds = [round.note name] := by
      unfold noteAck
      rw [hr]
      rfl
    have hacks :
        Tracks (round.note name).acknowledged (noteAck name port token now s).managerList :=
      ha.acknowledge name port token now
    -- an acknowledgement of a service that is not known changes nothing
    unfold acknowledgeServiceStarted
    split
    · rename_i hknown
      have hontime : OnTime s (.ack name port token now) ↔
          (s.timer = .waiting →
            internalCountServicesToBeAcknowledged (noteAck name port token now s).managerList = 0 →
            (noteAck name port token now s).managerList.countP ManagedService.unacknowledged = 0) :=
        ⟨fun hall => hall hknown hf, fun hall _ _ => hall⟩
      unfold afterAck
      split
      · rename_i hcount
        split
        · -- the handle is held: the round is finalized now
          obtain ⟨hphase, honce⟩ := @Phase.finalize
            { noteAck name port token now s with
              monitorAckTask := false, timer := cancelDelayTask s.timer }
            (round.note name) hnoted hf hfinal hacks (cancelDelayTask_ne_waiting _)
          refine ⟨hphase, honce.trans ?_⟩
          rw [hontime]
          obtain ⟨hw, he⟩ | ⟨-, hw, he⟩ := ht
          · exact ⟨fun hall _ _ => hall he, fun hall _ => hall hw hcount⟩
          · refine ⟨fun _ hw' => absurd hw' hw, fun _ hlive => ?_⟩
            rw [show (round.note name).expired = true from he] at hlive
            cases hlive
        · -- the time has passed, and the callback will finalize the round
          rename_i hhandle
          have hnot : s.timer ≠ .waiting := fun hw => hhandle (hh hw)
          refine ⟨.first { round.note name with
              someServicesStarted := name :: round.someServicesStarted } ?_ hf hfinal hacks hp
              (fun hw => absurd hw hnot) ht, ?_⟩
          · unfold State.record
            rw [hnoted]
            rfl
          · exact iff_of_true (onceSoFar_of_not hf) (hontime.mpr fun hw => absurd hw hnot)
      · rename_i hcount
        refine ⟨.first (round.note name) hnoted hf hfinal hacks hp hh ht, ?_⟩
        exact iff_of_true (onceSoFar_of_not hf) (hontime.mpr fun _ hzero => absurd hzero hcount)
    · rename_i hunknown
      exact ⟨.first round hr hf hfinal ha hp hh ht,
        iff_of_true hbefore fun hknown => absurd hknown hunknown⟩
  | finalized round past hr hf ht =>
    -- after the first finalization a round can only collect names
    obtain ⟨change, hchange, hrounds', hflag, htimer⟩ :=
      acknowledgeServiceStarted_of_finalized name port token now hf
    have hontime : OnTime s (.ack name port token now) := by
      intro _ hnot
      rw [hf] at hnot
      cases hnot
    rw [and_iff_left hontime]
    refine ⟨.finalized (change round) past ?_ hflag fun hw => ?_, ?_⟩
    · rw [hrounds', hr]
      rfl
    · rw [(hchange round).1]
      exact ht (htimer hw)
    · unfold OnceSoFar
      rw [hflag, hf, hrounds', forall_finalizedOnce_modifyHead hchange]

/-! ### The timer -/

theorem Phase.expire (hwaiting : s.timer = .waiting) (hs' : s' = { s with
      timer := .fired
      rounds := s.rounds.modifyHead fun round => { round with expired := true } }) :
    Phase s' ∧ (OnceSoFar s' ↔ OnceSoFar s ∧ True) := by
  subst hs'
  rw [and_true]
  cases h with
  | before _ _ _ ht _ =>
    rw [ht] at hwaiting
    cases hwaiting
  | first round hr hf hfinal ha hp _ _ =>
    refine ⟨.first { round with expired := true } ?_ hf hfinal ha hp Timer.noConfusion
      (.inr ⟨Timer.noConfusion, Timer.noConfusion, rfl⟩), ?_⟩
    · rw [hr]
      rfl
    · exact iff_of_true (onceSoFar_of_not hf) (onceSoFar_of_not hf)
  | finalized round past hr hf ht =>
    -- a round that is begun after the sequence was finalized is bad already
    have hempty := ht hwaiting
    have hrounds : s.rounds.modifyHead (fun round => { round with expired := true }) =
        { round with expired := true } :: past := by
      rw [hr]
      rfl
    refine ⟨.finalized { round with expired := true } past hrounds hf fun _ => hempty,
      iff_of_false ?_ ?_⟩
    · intro honce
      have hlast := honce hf { round with expired := true } (hrounds ▸ mem_cons_self)
      exact @Round.not_finalizedOnce { round with expired := true } hempty hlast
    · intro honce
      exact Round.not_finalizedOnce hempty (honce hf round (hr ▸ mem_cons_self))

theorem Phase.clearHandle (hfired : s.timer = .fired) :
    Phase { s with monitorAckTask := false, timer := .late } ∧
      (OnceSoFar { s with monitorAckTask := false, timer := .late } ↔ OnceSoFar s ∧ True) := by
  refine ⟨?_, (and_iff_left trivial).symm⟩
  cases h with
  | before _ _ _ ht _ => cases hfired.symm.trans ht
  | first round hr hf hfinal ha hp _ ht =>
    refine .first round hr hf hfinal ha hp Timer.noConfusion ?_
    obtain ⟨hw, -⟩ | ⟨-, -, he⟩ := ht
    · cases hfired.symm.trans hw
    · exact .inr ⟨Timer.noConfusion, Timer.noConfusion, he⟩
  | finalized round past hr hf _ => exact .finalized round past hr hf Timer.noConfusion

theorem Phase.giveUp (hlate : s.timer = .late) :
    Phase (allAcksReceived { s with timer := .none }) ∧
      (OnceSoFar (allAcksReceived { s with timer := .none }) ↔ OnceSoFar s ∧ True) := by
  rw [and_true]
  cases h with
  | before _ _ _ ht _ =>
    rw [ht] at hlate
    cases hlate
  | first round hr hf hfinal ha hp hh ht =>
    obtain ⟨hphase, honce⟩ := @Phase.finalize { s with timer := .none } round hr hf hfinal ha
      Timer.noConfusion
    refine ⟨hphase, iff_of_true (honce.mpr fun hlive => ?_) (onceSoFar_of_not hf)⟩
    obtain ⟨hw, -⟩ | ⟨-, -, he⟩ := ht
    · rw [hw] at hlate
      cases hlate
    · rw [he] at hlive
      cases hlive
  | finalized round past hr hf ht =>
    have hsame : allAcksReceived { s with timer := .none } = { s with timer := .none } := if_pos hf
    rw [hsame]
    exact ⟨.finalized round past hr hf Timer.noConfusion, Iff.rfl⟩

/-! ## Whole runs -/

/-- Every step keeps the phase, and the record stays clean exactly through the steps on time. -/
theorem Phase.step {o : Unit} (hstep : step s event = some (s', o)) :
    Phase s' ∧ (OnceSoFar s' ↔ OnceSoFar s ∧ OnTime s event) := by
  revert hstep
  fun_cases Startup.step s event <;> intro hstep
  case case5 names n _ hpc =>
    obtain ⟨curr, -, ⟨⟩⟩ := Option.map_eq_some_iff.mp hstep
    have hstops : s.pc.stops = true := by rw [hpc]; rfl
    unfold stopService
    split
    · exact h.services (fun _ => .inl hstops) id
    · exact h.services (fun _ => .inl hstops) fun ha => ha.modify keeps_mark n
  all_goals obtain ⟨⟩ := hstep
  case case1 fork hcomplete => exact h.begin (.inl hcomplete.2) fork none
  case case3 hcomplete =>
    exact h.services (fun _ => .inr hcomplete.2) fun ha => ha.ignoreAllProcDeaths
  case case7 fork names _ hpc =>
    have hstops : s.pc.stops = true := by rw [hpc]; rfl
    obtain ⟨hphase, honce⟩ := h.begin (.inr hstops) fork (some names)
    refine ⟨hphase, honce.trans (and_congr_right fun _ => ?_)⟩
    exact ⟨fun hnot _ => hnot, fun hnot => hnot rfl⟩
  case case8 hslept _ =>
    obtain ⟨hphase, honce⟩ := @Phase.services s h s.managerList .idle Bool.noConfusion id
    refine ⟨hphase, honce.trans (and_congr_right fun _ => iff_of_true trivial ?_)⟩
    exact fun hslept' => absurd hslept' hslept
  case case11 fork names _ =>
    exact h.services Bool.noConfusion fun ha => ha.startRemaining fork names
  case case13 context pid _ => exact h.services .inl fun ha => ha.onFirst (keeps_die context pid) _
  case case15 name port token now henabled => exact h.acknowledge henabled.2 name port token now
  case case17 hwaiting => exact h.expire hwaiting rfl
  case case19 hfired => exact h.clearHandle hfired
  case case21 hlate => exact h.giveUp hlate.2

theorem Phase.finalized_of_complete (hcomplete : s.Complete) :
    s.startupSequenceFinalized = true ∨ s.rounds = [] := by
  cases h with
  | before hr _ _ _ _ => exact .inr hr
  | first _ _ _ _ _ _ _ ht => simp [hcomplete.2] at ht
  | finalized _ _ _ hf _ => exact .inl hf

end

/-- When the last round is complete, every round was finalized once and in time exactly if each
was begun before the sequence had ever been finalized (and the counter never wrapped). -/
theorem startup_finalized_once_iff {services : List ManagedService}
    (hloaded : ∀ service ∈ services, service.lastActReceivedTime = 0) {events : List Event}
    {s' : State} {os : List Unit} (hrun : run step (boot services) events = some (s', os))
    (hcomplete : s'.Complete) :
    (∀ round ∈ s'.rounds, round.FinalizedOnce) ↔ Guarded step OnTime (boot services) events := by
  have hbegin : Phase (boot services) :=
    .before rfl rfl rfl rfl fun service hmem hacked => absurd (hloaded service hmem) hacked
  obtain ⟨hend, honce⟩ := run_iff_guarded (fun _ _ _ _ h hstep => h.step hstep) hbegin hrun
  rw [and_iff_right (onceSoFar_of_not rfl)] at honce
  rw [← honce]
  obtain hflag | hnone := hend.finalized_of_complete hcomplete
  · exact ⟨fun hall _ => hall, fun hall => hall hflag⟩
  · unfold OnceSoFar
    rw [hnone]
    exact iff_of_true (forall_mem_nil _) fun _ => forall_mem_nil _

/-- A service that acknowledges its start. -/
def sampleService : ManagedService where
  execPath := "/bin/service"
  restartOnFail := true
  secondsBetweenRestarts := 0
  maxRestartsPerMinute := 0
  restartsWithinPastMinute := 0
  actionOnMaxRestarts := .stopRestarting
  lastRestartTimeMono := 0
  lastActReceivedTime := 0
  shutdownToken := none
  currentPid := 0
  tempIgoreDeath := false
  deathCount := 0
  serviceName := "service"
  autoStart := true
  singlePhaseStartup := false
  expectStartupAck := true
  isJavaService := false
  serviceIpcPort := 0

/-- The watchdog starts the service, and the service acknowledges. -/
def started : List Event :=
  [.startAll fun _ => (100, 1), .startRemaining fun _ => (100, 1), .ack "service" 5000 none 2]

theorem startup_finalized_once_iff_started :
    ∃ s' os, run step (boot [sampleService]) started = some (s', os) ∧ s'.rounds.length = 1 ∧
      ((∀ round ∈ s'.rounds, round.FinalizedOnce) ↔
        Guarded step OnTime (boot [sampleService]) started) := by
  refine ⟨_, _, rfl, rfl, startup_finalized_once_iff ?_ rfl (by decide)⟩
  intro service hmem
  rw [mem_singleton.mp hmem]
  rfl

/-- All services are restarted, and every one of them acknowledges; nothing is finalized. -/
theorem restart_never_finalized :
    ∃ s' os, run step (boot [sampleService])
        (started ++ [.restartAll, .stop, .died ⟨3, true, 101, 3⟩ 100,
          .restart true fun _ => (101, 5), .startRemaining fun _ => (101, 5),
          .ack "service" 5000 none 7]) = some (s', os) ∧
      s'.Complete ∧ ∃ round past, s'.rounds = round :: past ∧
        round.acknowledged = ["service"] ∧ round.finalizations = [] := by
  exact ⟨_, _, rfl, ⟨rfl, rfl⟩, _, _, rfl, rfl, rfl⟩

end ZilkerSdk.Watchdog.Startup
