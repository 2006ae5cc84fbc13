import ZilkerSdk.Lib.Octets
import ZilkerSdk.Lib.Run

/-!
# Pin codes of door locks

Model of `setPinCodes` and `programPinCodesOnLock` in
`services/device/core/deviceDrivers/zigbeeDoorLock/zigbeeDoorLockDeviceDriver.c`, with the
commands of `zigbeeClusters/doorLockCluster.c`.

`setPinCodes` clears all codes of the lock and then lets a delayed task set the new ones, user
by user.  A command is sent, and its answer comes later, from the thread that reads the radio,
through a synchronizer that the two share: a mutex, a condition and the kind and the success of
the last answer.  The caller waits for the task on a second condition.

The task notes in `args.result` whether every code was set.  The caller waits until the task is
done, but the value it returns is the one it had before.

A lock is what becomes of each command it is sent: the command cannot be sent, it is answered,
or no answer comes in time; in the last case an answer may come until the next command is
sent.  Where a thread waits, a wake-up without a reason counts as no answer in time.

`parsePinCodes` is not modelled; the lists it returns are the `UserList`s.
-/

namespace ZilkerSdk.Device.DoorLock

open Lib

/-! ## Users and commands -/

def isDigit (c : UInt8) : Bool := 48 ≤ c && c ≤ 57

/-- A user that `parsePinUser` has accepted: the pin has digits only, and `pin` has room for it
and its end. -/
structure DoorLockClusterUser where
  userId : UInt16
  userStatus : UInt8
  userType : UInt8
  pin : List UInt8
  pin_digits : pin.all isDigit = true
  pin_length : pin.length < 16

/-- The lists of `parsePinCodes`: it refuses an id or a pin that was given twice. -/
structure UserList where
  users : List DoorLockClusterUser
  ids_nodup : (users.map DoorLockClusterUser.userId).Nodup
  pins_nodup : (users.map DoorLockClusterUser.pin).Nodup

structure Command where
  commandId : UInt8
  payload : List UInt8
  deriving DecidableEq

/-- `DOORLOCK_CLEAR_ALL_PIN_CODES_COMMAND_ID`, also of its response -/
def clearAllPinCodesCommandId : UInt8 := 0x08

/-- `DOORLOCK_SET_PIN_CODE_COMMAND_ID`, also of its response -/
def setPinCodeCommandId : UInt8 := 0x05

def doorLockClusterClearAllPinCodes : Command := ⟨clearAllPinCodesCommandId, []⟩

/-- The user id in little-endian order, status, type, and the pin with its length. -/
def setPinCodePayload (user : DoorLockClusterUser) : List UInt8 :=
  (toBytes 2 user.userId.toNat).reverse ++
    [user.userStatus, user.userType, UInt8.ofNat user.pin.length] ++ user.pin

/-- The command is not sent if a character of the pin is not a digit. -/
def doorLockClusterSetPinCode (user : DoorLockClusterUser) : Option Command :=
  if user.pin.all isDigit then some ⟨setPinCodeCommandId, setPinCodePayload user⟩ else none

/-- The command that sets the pin of a user. -/
def setPin (user : DoorLockClusterUser) : Command := ⟨setPinCodeCommandId, setPinCodePayload user⟩

@[simp] theorem doorLockClusterSetPinCode_eq (user : DoorLockClusterUser) :
    doorLockClusterSetPinCode user = some (setPin user) :=
  if_pos user.pin_digits

theorem userId_eq_of_setPin_eq {user user' : DoorLockClusterUser} (h : setPin user = setPin user') :
    user.userId = user'.userId := by
  have hpayload : setPinCodePayload user = setPinCodePayload user' := congrArg Command.payload h
  unfold setPinCodePayload at hpayload
  rw [List.append_assoc, List.append_assoc] at hpayload
  have hids := (List.append_inj hpayload (by simp)).1
  have hbytes : toBytes 2 user.userId.toNat = toBytes 2 user'.userId.toNat :=
    List.reverse_injective hids
  have hnat : user.userId.toNat = user'.userId.toNat := by
    rw [← ofBytes_toBytes (w := 2) user.userId.toNat_lt, hbytes]
    exact ofBytes_toBytes user'.userId.toNat_lt
  exact UInt16.toNat_inj.mp hnat

/-! ## Answers -/

/-- What becomes of a command: `zigbeeSubsystemSendCommand` fails, the lock answers with a
status, or it does not answer in time and perhaps later. -/
inductive Behaviour where
  | unsent
  | answered (status : UInt8)
  | silent (late : Option UInt8)
  deriving DecidableEq

inductive DoorLockResponseType where
  | unknown
  | clearAllPins
  | clearPin
  | setPin
  | getPin
  deriving DecidableEq

/-- The part of `DoorLockRequestSynchronizer` that the waiting threads read. -/
structure DoorLockRequestSynchronizer where
  responseType : DoorLockResponseType
  success : Bool
  deriving DecidableEq

def handleAsyncResponse (success : Bool) (responseType : DoorLockResponseType)
    (_ : DoorLockRequestSynchronizer) : DoorLockRequestSynchronizer :=
  ⟨responseType, success⟩

def clearAllPinCodesResponse (success : Bool) :
    DoorLockRequestSynchronizer → DoorLockRequestSynchronizer :=
  handleAsyncResponse success .clearAllPins

def setPinCodeResponse (result : UInt8) :
    DoorLockRequestSynchronizer → DoorLockRequestSynchronizer :=
  handleAsyncResponse (result == 0) .setPin

/-- `handleClusterCommand`, for the answers to the two commands; both have one byte. -/
def handleClusterCommand (commandId status : UInt8) :
    DoorLockRequestSynchronizer → DoorLockRequestSynchronizer :=
  if commandId = setPinCodeCommandId then setPinCodeResponse status
  else if commandId = clearAllPinCodesCommandId then clearAllPinCodesResponse (status == 0)
  else id

/-! ## The two threads -/

inductive Party where
  | caller
  | worker
  deriving DecidableEq

/-- Where `setPinCodes` is. -/
inductive Caller where
  | start
  /-- holds `asyncMtx`, about to send -/
  | clearing
  | awaitingClear
  /-- all codes are cleared -/
  | cleared
  /-- holds `args.mtx`, at the head of its loop -/
  | checking
  | awaitingWorker
  | returned
  deriving DecidableEq

/-- Where `programPinCodesOnLock` is, with the users that are left. -/
inductive Worker where
  | unscheduled
  | scheduled
  /-- holds `args.mtx`, at the head of its loop -/
  | programming (users : List DoorLockClusterUser)
  /-- holds `asyncMtx`, about to send -/
  | sending (user : DoorLockClusterUser) (users : List DoorLockClusterUser)
  | awaiting (user : DoorLockClusterUser) (users : List DoorLockClusterUser)
  | done

/-- The command that was sent last, and whether its answer has been handled. -/
structure Sent where
  command : Command
  behaviour : Behaviour
  delivered : Bool
  deriving DecidableEq

/-- What can be seen on the radio, late answers apart. -/
inductive Note where
  | sent (command : Command)
  | answered (command : Command) (status : UInt8)
  deriving DecidableEq

structure ProgramPinCodesOnLockArgs where
  users : List DoorLockClusterUser
  result : Bool
  complete : Bool

structure State where
  syncr : DoorLockRequestSynchronizer
  asyncMtx : Option Party
  /-- commands given to the radio -/
  issued : Nat
  sent : Option Sent
  traffic : List Note
  /-- `users` and `result` of `setPinCodes` -/
  users : List DoorLockClusterUser
  result : Bool
  caller : Caller
  /-- `args.mtx` -/
  mtx : Option Party
  args : ProgramPinCodesOnLockArgs
  worker : Worker

/-- `setPinCodes`, after the text was parsed. -/
def setPinCodes (syncr : DoorLockRequestSynchronizer) (pinCodes : Option UserList) : State where
  syncr := syncr
  asyncMtx := none
  issued := 0
  sent := none
  traffic := []
  users := match pinCodes with
    | none => []
    | some list => list.users
  result := false
  caller := match pinCodes with
    | none => .returned
    | some _ => .start
  mtx := none
  args := ⟨[], false, false⟩
  worker := .unscheduled

/-- Before a command is sent the last answer is forgotten. -/
def DoorLockRequestSynchronizer.reset (syncr : DoorLockRequestSynchronizer) :
    DoorLockRequestSynchronizer :=
  { syncr with success := false }

/-- Give a command to the radio. -/
def State.send (lock : Nat → Behaviour) (command : Command) (s : State) : State × Bool :=
  match lock s.issued with
  | .unsent => ({ s with issued := s.issued + 1 }, false)
  | behaviour =>
    ({ s with
        issued := s.issued + 1
        sent := some ⟨command, behaviour, false⟩
        traffic := s.traffic ++ [.sent command] }, true)

/-- What the waiting thread finds. -/
def DoorLockRequestSynchronizer.acknowledged (timedOut : Bool) (responseType : DoorLockResponseType)
    (syncr : DoorLockRequestSynchronizer) : Bool :=
  !timedOut && syncr.success && syncr.responseType == responseType

/-- A step of `setPinCodes`, its wait for an answer apart. -/
def callerStep (lock : Nat → Behaviour) (s : State) : Option State :=
  match s.caller with
  | .start =>
    if s.asyncMtx = none then
      some { s with asyncMtx := some .caller, syncr := s.syncr.reset, caller := .clearing }
    else none
  | .clearing =>
    match s.send lock doorLockClusterClearAllPinCodes with
    | (s', true) => some { s' with asyncMtx := none, result := true, caller := .awaitingClear }
    | (s', false) => some { s' with asyncMtx := none, result := false, caller := .returned }
  | .awaitingClear => none
  | .cleared =>
    -- `scheduleDelayTask`
    if s.mtx = none then
      some { s with
        mtx := some .caller
        args := ⟨s.users, false, false⟩
        worker := .scheduled
        caller := .checking }
    else none
  | .checking =>
    if s.args.complete then some { s with mtx := none, caller := .returned }
    else some { s with mtx := none, caller := .awaitingWorker }
  | .awaitingWorker =>
    if s.mtx = none then some { s with mtx := some .caller, caller := .checking } else none
  | .returned => none

/-- A step of `programPinCodesOnLock`, its waits for an answer apart. -/
def workerStep (lock : Nat → Behaviour) (s : State) : Option State :=
  match s.worker with
  | .unscheduled => none
  | .scheduled =>
    if s.mtx = none then
      some { s with
        mtx := some .worker
        args := { s.args with result := true }
        worker := .programming s.args.users }
    else none
  | .programming [] =>
    some { s with mtx := none, args := { s.args with complete := true }, worker := .done }
  | .programming (user :: users) =>
    if s.asyncMtx = none then
      some { s with
        asyncMtx := some .worker
        syncr := s.syncr.reset
        worker := .sending user users }
    else none
  | .sending user users =>
    match (doorLockClusterSetPinCode user).map fun command => s.send lock command with
    | some (s', true) => some { s' with asyncMtx := none, worker := .awaiting user users }
    | some (s', false) =>
      some { s' with
        asyncMtx := none
        args := { s.args with result := false }
        worker := .programming users }
    | none =>
      some { s with
        asyncMtx := none
        args := { s.args with result := false }
        worker := .programming users }
  | .awaiting _ _ => none
  | .done => none

/-- The answer of the lock reaches `handleAsyncResponse`. -/
def answer (s : State) : Option State :=
  match s.sent, s.asyncMtx with
  | some ⟨command, .answered status, false⟩, none =>
    some { s with
      syncr := handleClusterCommand command.commandId status s.syncr
      sent := some ⟨command, .answered status, true⟩
      traffic := s.traffic ++ [.answered command status] }
  | some ⟨command, .silent (some status), false⟩, none =>
    some { s with
      syncr := handleClusterCommand command.commandId status s.syncr
      sent := some ⟨command, .silent (some status), true⟩ }
  | _, _ => none

/-- `incrementalCondTimedWait` ends with the answer, or too early for it. -/
def Sent.ends (sent : Sent) (timedOut : Bool) : Bool :=
  match sent.behaviour with
  | .unsent => false
  | .answered _ => sent.delivered && !timedOut
  | .silent _ => timedOut || !sent.delivered

/-- A wait for an answer ends, and the thread looks at the synchronizer. -/
def wake (timedOut : Bool) (s : State) : Option State :=
  if s.asyncMtx = none ∧ (s.sent.map fun sent => sent.ends timedOut) = some true then
    match s.caller, s.worker with
    | .awaitingClear, _ =>
      if s.syncr.acknowledged timedOut .clearAllPins then some { s with caller := .cleared }
      else some { s with result := false, caller := .returned }
    | _, .awaiting _ users =>
      if s.syncr.acknowledged timedOut .setPin then some { s with worker := .programming users }
      else some { s with args := { s.args with result := false }, worker := .programming users }
    | _, _ => none
  else none

inductive Event where
  | caller
  | worker
  | answer
  | wake (timedOut : Bool)

def step (lock : Nat → Behaviour) (s : State) : Event → Option (State × Unit)
  | .caller => (callerStep lock s).map fun s' => (s', ())
  | .worker => (workerStep lock s).map fun s' => (s', ())
  | .answer => (answer s).map fun s' => (s', ())
  | .wake timedOut => (wake timedOut s).map fun s' => (s', ())

end ZilkerSdk.Device.DoorLock
