import Mathlib.Algebra.Group.Nat.Defs
import ZilkerSdk.Lib.Run

/-!
# Stopping and restarting a service

Model of `services/watchdog/core/src/procMgr.c` for one service: an operation that
stops it (`executeStopOperation`) and may start it again, in one thread, and the main
thread, which waits for children to die and calls `handleDeadChild` for each of them.

Both hold `SERVICE_MTX`.  The operation releases it only in `waitForDeath`, inside of
`incrementalCondTimedWait`, and when it returns; so the program counter of the
operation tells whether `handleDeadChild` can run.  Processes end and are collected
by `wait` whenever they like.  What happens outside (the answer of the service, the
pids `fork` gives, the clock) is part of the events.

The log `sent` and the list `launched` are not in the source: they record the calls of
`kill` and the processes started since the operation began.
-/

namespace ZilkerSdk.Watchdog

open Option

/-! ## The service -/

/-- `pid_t`; 0 is no process. -/
abbrev Pid := Int

/-- `actionOnMaxRestarts`, where the source has a number. -/
inductive MaxRestartsAction where
  | reboot
  | stopRestarting
  | unknown (action : Nat)
  deriving DecidableEq

/-- `serviceDefinition`, without the fields that only identify, group or display the service. -/
structure ServiceDefinition where
  execPath : String
  restartOnFail : Bool
  secondsBetweenRestarts : Nat
  maxRestartsPerMinute : Nat
  restartsWithinPastMinute : Nat
  actionOnMaxRestarts : MaxRestartsAction
  lastRestartTimeMono : Int
  lastActReceivedTime : Int
  shutdownToken : Option String
  currentPid : Pid
  tempIgoreDeath : Bool
  deathCount : Nat
  deriving DecidableEq

/-- `startProcess`, in the parent: `pid` is what `fork` returns. -/
def startProcess (pid : Pid) (now : Int) (procDef : ServiceDefinition) : ServiceDefinition :=
  let procDef := { procDef with lastActReceivedTime := 0 }
  if pid > 0 then { procDef with currentPid := pid, lastRestartTimeMono := now } else procDef

/-- What `handleDeadChild` meets outside: the clock, whether it sleeps through if it has to
sleep, and what `fork` returns and when. -/
structure DeathContext where
  now : Int
  sleptThrough : Bool
  forkPid : Pid
  startTime : Int
  deriving DecidableEq

/-- The service died too soon after its last start. -/
def ServiceDefinition.mustWait (target : ServiceDefinition) (now : Int) : Bool :=
  let restartTimeDiff := now - target.lastRestartTimeMono
  target.secondsBetweenRestarts > 0 && restartTimeDiff ≥ 0 &&
    restartTimeDiff < target.secondsBetweenRestarts

/-- Count the restart; the result tells whether it is made. -/
def countRestart (now : Int) (target : ServiceDefinition) : ServiceDefinition × Bool :=
  if target.maxRestartsPerMinute > 0 then
    let restarts :=
      if now - target.lastRestartTimeMono < 60 then (target.restartsWithinPastMinute + 1) % 2 ^ 16
      else 1
    let counted := { target with restartsWithinPastMinute := restarts }
    if restarts > target.maxRestartsPerMinute then
      match target.actionOnMaxRestarts with
      -- whether or not the device is rebooted, the process is not started
      | .reboot => (counted, false)
      | .stopRestarting => (counted, false)
      | .unknown _ => (counted, true)
    else (counted, true)
  else (target, true)

/-- The part of `handleDeadChild` that follows once the service is to be restarted; the result
tells whether `startProcess` was called. -/
def restartDeadChild (context : DeathContext) (target : ServiceDefinition) :
    ServiceDefinition × Bool :=
  if target.mustWait context.now && !context.sleptThrough then (target, false)
  else
    match countRestart context.now target with
    | (counted, false) => (counted, false)
    | (counted, true) => (startProcess context.forkPid context.startTime counted, true)

/-- `handleDeadChild` of a process that is the one of the service. -/
def handleDeath (context : DeathContext) (target : ServiceDefinition) : ServiceDefinition × Bool :=
  let deathCount :=
    if target.tempIgoreDeath then target.deathCount else (target.deathCount + 1) % 2 ^ 64
  let dead := { target with currentPid := 0, deathCount := deathCount }
  if target.restartOnFail = false then (dead, false)
  else if target.tempIgoreDeath then (dead, false)
  else restartDeadChild context dead

/-- `handleDeadChild`: nothing is done for a process that is not the one of the service. -/
def handleDeadChild (context : DeathContext) (childPid : Pid) (target : ServiceDefinition) :
    ServiceDefinition × Bool :=
  if target.currentPid = childPid then handleDeath context target else (target, false)

/-! ## The state -/

inductive SignalNumber where
  | sigterm
  | sigquit
  | sigkill
  deriving DecidableEq

/-- A call of `kill`. -/
structure Signal where
  pid : Pid
  signal : SignalNumber
  deriving DecidableEq

/-- The flags of `executeStopOperation`, and whether the caller goes on with
`executeStartOperation`. -/
structure Operation where
  resetAck : Bool
  forceKill : Bool
  ignoreDeath : Bool
  dumpCore : Bool
  thenStart : Bool
  deriving DecidableEq

/-- `operationOnSingleProcesses` with `RESTART_PROCESS_ACTION`. -/
def restartProcessAction : Operation := ⟨false, false, true, false, true⟩

/-- `operationOnSingleProcesses` with `RESTART_FOR_RECOVERY_PROCESS_ACTION`. -/
def restartForRecoveryProcessAction : Operation := ⟨false, true, false, true, false⟩

/-- The two calls of `waitForDeath`. -/
inductive WaitAfter where
  | ipc
  | signal
  deriving DecidableEq

/-- Where the operation stands.  `pid` is its local variable, the pid before the stop. -/
inductive Pc where
  /-- It has got the lock. -/
  | begin
  /-- It asks the service to shut down. -/
  | ipc (pid : Pid)
  /-- It is about to ask whether the process is alive. -/
  | polling (pid : Pid) (after : WaitAfter) (checkCount : Nat)
  /-- It is in `incrementalCondTimedWait`, without the lock. -/
  | waiting (pid : Pid) (after : WaitAfter) (checkCount : Nat)
  /-- `executeStopOperation` is done. -/
  | stopped
  /-- It has released the lock. -/
  | returned
  deriving DecidableEq

/-- `SERVICE_MTX` is free. -/
def Pc.unlocked : Pc → Bool
  | .waiting _ _ _ => true
  | .returned => true
  | _ => false

/-- The service, the operation and the processes of the service: those that run, those that have
ended, and the one that `wait` returned last until `handleDeadChild` has got the lock. -/
structure State where
  service : ServiceDefinition
  pc : Pc
  alive : List Pid
  ended : List Pid
  reaped : Option Pid
  sent : List Signal
  launched : List Pid
  deriving DecidableEq

/-! ## The stop half -/

def deathWaitSecs : Nat := 10

/-- The result of `waitForDeath` after so many polls. -/
def waitForDeathResult (checkCount : Nat) : Bool := !decide (checkCount ≥ 5)

/-- `kill(curr->currentPid, signal)`. -/
def State.kill (s : State) (signal : SignalNumber) : State :=
  { s with sent := s.sent ++ [⟨s.service.currentPid, signal⟩] }

/-- If still alive, use -9. -/
def sendKill (s : State) (isDead : Bool) : State :=
  if isDead = false ∧ s.service.currentPid > 0 then { s.kill .sigkill with pc := .stopped }
  else { s with pc := .stopped }

def Operation.signal (op : Operation) : SignalNumber := if op.dumpCore then .sigquit else .sigterm

/-- Regardless of IPC being sent or not, also send a signal and wait. -/
def sendSignal (op : Operation) (pid : Pid) (s : State) (isDead : Bool) : State :=
  if isDead = false ∧ s.service.currentPid > 0 then
    { s.kill op.signal with pc := .polling pid .signal 0 }
  else sendKill s isDead

/-- Handle the scenario where IPC failed, yet the process actually died. -/
def afterIpc (op : Operation) (pid : Pid) (s : State) (isDead : Bool) : State :=
  sendSignal op pid s (isDead || decide (s.service.currentPid ≤ 0))

/-- `waitForDeath` has returned. -/
def afterWait (op : Operation) (pid : Pid) (s : State) (isDead : Bool) : WaitAfter → State
  | .ipc => afterIpc op pid s isDead
  | .signal => sendKill s isDead

/-- Set the 'ignore' flag, and potentially reset the 'lastAck' time. -/
def markForStop (op : Operation) (curr : ServiceDefinition) : ServiceDefinition :=
  { curr with
    tempIgoreDeath := op.ignoreDeath
    lastActReceivedTime := if op.resetAck then 0 else curr.lastActReceivedTime }

/-- Ask the service to shut down if it can be asked, else go on with a signal. -/
def requestStop (op : Operation) (pid : Pid) (s : State) : State :=
  if op.forceKill = false ∧ op.dumpCore = false ∧ s.service.shutdownToken.isSome = true then
    { s with pc := .ipc pid }
  else sendSignal op pid s false

/-- `executeStopOperation` up to its first wait. -/
def beginStop (op : Operation) (s : State) : State :=
  if s.service.currentPid ≤ 0 then { s with pc := .stopped }
  else requestStop op s.service.currentPid { s with service := markForStop op s.service }

/-! ## The start half -/

/-- `executeStartOperation`; the result tells whether `startProcess` was called. -/
def executeStartOperation (pid : Pid) (now : Int) (curr : ServiceDefinition) :
    ServiceDefinition × Bool :=
  if curr.execPath = "" then (curr, false)
  else if curr.currentPid > 0 then (curr, false)
  else (startProcess pid now { curr with tempIgoreDeath := false }, true)

/-! ## Steps -/

inductive Event where
  /-- A process ends. -/
  | exit (pid : Pid)
  /-- `wait` returns it to the main thread, which then calls `handleDeadChild`. -/
  | reap (pid : Pid)
  /-- `handleDeadChild` has got the lock. -/
  | handle (context : DeathContext)
  | begin
  /-- `requestServiceShutdown` returns. -/
  | ipc (success : Bool)
  /-- `isProcessAlive`; `others` tells whether some other process has the pid by now. -/
  | poll (others : Bool)
  /-- `incrementalCondTimedWait` returns. -/
  | wake
  /-- The caller of `executeStopOperation` finishes. -/
  | finish (forkPid : Pid) (now : Int)

/-- Record a process that was started; `fork` does not return a pid in use. -/
def launch (s : State) (started : Bool) (pid : Pid) : Option State :=
  if started = true ∧ pid > 0 then
    if pid ∈ s.alive ∨ pid ∈ s.ended then none
    else some { s with alive := pid :: s.alive, launched := pid :: s.launched }
  else some s

/-- `kill(pid, 0)` works for a process that has ended until it is collected. -/
def isProcessAlive (s : State) (pid : Pid) (others : Bool) : Bool :=
  decide (pid ∈ s.alive) || decide (pid ∈ s.ended) || others

/-- The loop of `waitForDeath` ends with this poll. -/
def waitEnds (s : State) (pid : Pid) (checkCount : Nat) (others : Bool) : Bool :=
  !(isProcessAlive s pid others && decide (checkCount < deathWaitSecs))

/-- The main thread: `handleDeadChild` for the process that `wait` returned. -/
def handleStep (s : State) (context : DeathContext) : Option State :=
  match s.reaped with
  | none => none
  | some childPid =>
    let result := handleDeadChild context childPid s.service
    launch { s with service := result.1, reaped := none } result.2 context.forkPid

/-- The thread of the operation. -/
def operationStep (op : Operation) (s : State) (event : Event) : Option State :=
  match s.pc, event with
  | .begin, .begin => some (beginStop op s)
  | .ipc pid, .ipc success =>
    if success then some { s with pc := .polling pid .ipc 0 } else some (afterIpc op pid s false)
  | .polling pid after checkCount, .poll others =>
    if waitEnds s pid checkCount others then
      some (afterWait op pid s (waitForDeathResult checkCount) after)
    else some { s with pc := .waiting pid after checkCount }
  | .waiting pid after checkCount, .wake =>
    some { s with pc := .polling pid after (checkCount + 1) }
  | .stopped, .finish forkPid now =>
    if op.thenStart then
      let result := executeStartOperation forkPid now s.service
      launch { s with service := result.1, pc := .returned } result.2 forkPid
    else some { s with pc := .returned }
  | _, _ => none

def step (op : Operation) (s : State) (event : Event) : Option (State × Unit) :=
  match event with
  | .exit pid =>
    if pid ∈ s.alive then
      some ({ s with alive := s.alive.erase pid, ended := pid :: s.ended }, ())
    else none
  | .reap pid =>
    if pid ∈ s.ended ∧ s.reaped = none then
      some ({ s with ended := s.ended.erase pid, reaped := some pid }, ())
    else none
  | .handle context => if s.pc.unlocked then (handleStep s context).map fun s' => (s', ()) else none
  | event => (operationStep op s event).map fun s' => (s', ())

/-! ## What a step can do -/

section

variable {op : Operation} {s s' : State} {event : Event}

theorem launch_cases {started : Bool} {pid : Pid} (h : launch s started pid = some s') :
    (started = true ∧ pid > 0 ∧ pid ∉ s.alive ∧ pid ∉ s.ended ∧
      s' = { s with alive := pid :: s.alive, launched := pid :: s.launched }) ∨
    (¬ (started = true ∧ pid > 0) ∧ s' = s) := by
  revert h
  fun_cases launch s started pid <;> rintro ⟨⟩
  case case2 hstarted hfree =>
    rw [not_or] at hfree
    exact .inl ⟨hstarted.1, hstarted.2, hfree.1, hfree.2, rfl⟩
  case case3 hnot => exact .inr ⟨hnot, rfl⟩

theorem beginStop_cases (op : Operation) (s : State) :
    (s.service.currentPid ≤ 0 ∧ beginStop op s = { s with pc := .stopped }) ∨
    (s.service.currentPid > 0 ∧
      (beginStop op s = { s with service := markForStop op s.service,
                                 pc := .ipc s.service.currentPid } ∨
       beginStop op s = sendSignal op s.service.currentPid
        { s with service := markForStop op s.service } false)) := by
  fun_cases beginStop op s
  case case1 hnone => exact .inl ⟨hnone, rfl⟩
  case case2 hsome =>
    refine .inr ⟨Int.not_le.mp hsome, ?_⟩
    unfold requestStop
    split
    · exact .inl rfl
    · exact .inr rfl

/-- The operation gives the lock away in a wait and when it has returned. -/
theorem Pc.unlocked_cases {pc : Pc} (h : pc.unlocked = true) :
    (∃ pid after n, pc = .waiting pid after n) ∨ pc = .returned := by
  cases pc with
  | waiting pid after n => exact .inl ⟨pid, after, n, rfl⟩
  | returned => exact .inr rfl
  | _ => cases h

theorem operationStep_cases (h : operationStep op s event = some s') :
    (s.pc = .begin ∧ event = .begin ∧ s' = beginStop op s) ∨
    (∃ pid success, s.pc = .ipc pid ∧ event = .ipc success ∧
      s' = if success then { s with pc := .polling pid .ipc 0 } else afterIpc op pid s false) ∨
    (∃ pid after n others, s.pc = .polling pid after n ∧ event = .poll others ∧
      ((waitEnds s pid n others = true ∧ s' = afterWait op pid s (waitForDeathResult n) after) ∨
       (waitEnds s pid n others = false ∧ s' = { s with pc := .waiting pid after n }))) ∨
    (∃ pid after n, s.pc = .waiting pid after n ∧ event = .wake ∧
      s' = { s with pc := .polling pid after (n + 1) }) ∨
    (∃ forkPid now, s.pc = .stopped ∧ event = .finish forkPid now ∧
      ((op.thenStart = true ∧
        launch
          { s with service := (executeStartOperation forkPid now s.service).1, pc := .returned }
          (executeStartOperation forkPid now s.service).2 forkPid = some s') ∨
       (op.thenStart = false ∧ s' = { s with pc := .returned }))) := by
  revert h
  fun_cases operationStep op s event <;> intro h
  case case7 hpc hstart _ => exact .inr (.inr (.inr (.inr ⟨_, _, hpc, rfl, .inl ⟨hstart, h⟩⟩)))
  all_goals obtain ⟨⟩ := h
  case case1 hpc => exact .inl ⟨hpc, rfl, rfl⟩
  case case2 hpc => exact .inr (.inl ⟨_, true, hpc, rfl, rfl⟩)
  case case3 hpc hs => exact .inr (.inl ⟨_, _, hpc, rfl, (if_neg hs).symm⟩)
  case case4 hpc hends => exact .inr (.inr (.inl ⟨_, _, _, _, hpc, rfl, .inl ⟨hends, rfl⟩⟩))
  case case5 hpc hends =>
    exact .inr (.inr (.inl ⟨_, _, _, _, hpc, rfl, .inr ⟨Bool.not_eq_true _ ▸ hends, rfl⟩⟩))
  case case6 hpc => exact .inr (.inr (.inr (.inl ⟨_, _, _, hpc, rfl, rfl⟩)))
  case case8 hpc hstart =>
    exact .inr (.inr (.inr (.inr ⟨_, _, hpc, rfl, .inr ⟨Bool.not_eq_true _ ▸ hstart, rfl⟩⟩)))

/-- What a step of either thread can do. -/
theorem step_cases {o : Unit} (h : step op s event = some (s', o)) :
    (∃ pid, event = .exit pid ∧ pid ∈ s.alive ∧
      s' = { s with alive := s.alive.erase pid, ended := pid :: s.ended }) ∨
    (∃ pid, event = .reap pid ∧ pid ∈ s.ended ∧ s.reaped = none ∧
      s' = { s with ended := s.ended.erase pid, reaped := some pid }) ∨
    (∃ context childPid, event = .handle context ∧ s.pc.unlocked = true ∧
      s.reaped = some childPid ∧
      launch { s with service := (handleDeadChild context childPid s.service).1, reaped := none }
        (handleDeadChild context childPid s.service).2 context.forkPid = some s') ∨
    operationStep op s event = some s' := by
  have hop : (operationStep op s event).map (fun s' => (s', ())) = some (s', o) →
      operationStep op s event = some s' := by
    intro hmap
    obtain ⟨s₁, h₁, heq⟩ := map_eq_some_iff.mp hmap
    rw [h₁, (Prod.mk.inj heq).1]
  revert h
  fun_cases step op s event <;> intro h
  case case1 hmem => exact .inl ⟨_, rfl, hmem, (congrArg Prod.fst (some.inj h)).symm⟩
  case case3 hmem =>
    exact .inr (.inl ⟨_, rfl, hmem.1, hmem.2, (congrArg Prod.fst (some.inj h)).symm⟩)
  case case5 hfree =>
    obtain ⟨s₁, h₁, heq⟩ := map_eq_some_iff.mp h
    unfold handleStep at h₁
    split at h₁
    · cases h₁
    · rename_i childPid hreaped
      refine .inr (.inr (.inl ⟨_, childPid, rfl, hfree, hreaped, ?_⟩))
      rw [← (Prod.mk.inj heq).1]
      exact h₁
  case case7 => exact .inr (.inr (.inr (hop h)))
  all_goals cases h

end

/-! ## What a death can do -/

theorem launch_false (s : State) (pid : Pid) : launch s false pid = some s := by
  exact if_neg fun h => Bool.false_ne_true h.1

end ZilkerSdk.Watchdog
