import ZilkerSdk.Lib.Numeral
import ZilkerSdk.Lib.Octets
import ZilkerSdk.Lib.Run
import ZilkerSdk.Types.HashMap

/-!
# Commands of legacy security devices

Model of `handleClusterCommand` in
`services/device/core/deviceDrivers/zigbeeClusters/legacySecurityCluster.c`, with the parsers and
the common resources of `zigbeeLegacySecurityCommon/uc_common.c`.

Sensors number their commands, and a command that is older than the last one is to be
tossed.  `handleClusterCommand` checks the number, stores it if it is good, and notes in
`aceAndZoneShouldProcess` whether it is; but nothing looks at that note, so the content of
the command is handled in any case.  In the model the note is part of the outcome.

A device here is its `LegacyDeviceDetails` with the metadata that the check for a low
battery keeps.  The status that a keyfob sends is put together in a variable that is not
initialised; what it holds is part of the command.

Replies to the device (pending messages), return values and the commands that carry no status
are left out.
-/

namespace ZilkerSdk.Device.LegacySecurity

open Lib Types

/-! ## Messages -/

structure StatusMessage where
  devNum : UInt8
  byte1 : UInt8
  byte2 : UInt8
  batteryVoltage : Nat
  rssi : Int8
  lqi : UInt8
  temperature : Int
  hasExtra : Bool
  qsDelay : Nat
  retryCount : UInt8
  rejoinCount : UInt8
  deriving DecidableEq

def StatusMessage.tamper (status : StatusMessage) : Bool := status.byte1.toNat.testBit 4

def StatusMessage.lowBattery (status : StatusMessage) : Bool := status.byte1.toNat.testBit 5

structure KeyfobMessage where
  devNum : UInt8
  buttons : UInt8
  batteryVoltage : Nat
  rssi : Int8
  lqi : UInt8
  presses : Nat
  successes : Nat
  deriving DecidableEq

structure KeypadMessage where
  devNum : UInt8
  actionButton : UInt8
  code : List UInt8
  batteryVoltage : Nat
  rssi : Int8
  lqi : UInt8
  tempInt : Int8
  tempFrac : UInt8
  deriving DecidableEq

/-- Hundredths of a degree from whole degrees and tenths. -/
def temperatureOf (whole fraction : UInt8) : Int :=
  if whole.toInt8.toInt * 100 < 0 then whole.toInt8.toInt * 100 - fraction.toNat * 10
  else whole.toInt8.toInt * 100 + fraction.toNat * 10

/-- What is not in the message stays as it was in `status`. -/
def parseDeviceStatus (endpointId : UInt8) (message : List UInt8) (status : StatusMessage) :
    Option StatusMessage :=
  match message with
  | devNum :: byte1 :: byte2 :: v₁ :: v₀ :: rssi :: lqi :: whole :: fraction :: extra =>
    if endpointId ≤ 1 then
      some { status with
        devNum, byte1, byte2, lqi
        batteryVoltage := ofBytes [v₁, v₀]
        rssi := rssi.toInt8
        temperature := temperatureOf whole fraction }
    else
      match extra with
      | d₁ :: d₀ :: retryCount :: rejoinCount :: _ =>
        some
          { devNum, byte1, byte2, lqi, retryCount, rejoinCount
            batteryVoltage := ofBytes [v₁, v₀]
            rssi := rssi.toInt8
            temperature := temperatureOf whole fraction
            hasExtra := true
            qsDelay := ofBytes [d₁, d₀] }
      | _ => none
  | _ => none

/-- The counts are in little-endian order. -/
def parseKeyfobMessage : List UInt8 → Option KeyfobMessage
  | devNum :: buttons :: v₁ :: v₀ :: rssi :: lqi :: p₀ :: p₁ :: s₀ :: s₁ :: _ =>
    some
      { devNum, buttons, lqi
        batteryVoltage := ofBytes [v₁, v₀]
        rssi := rssi.toInt8
        presses := ofBytes [p₁, p₀]
        successes := ofBytes [s₁, s₀] }
  | _ => none

def parseKeypadMessage : List UInt8 → Option KeypadMessage
  | devNum :: actionButton :: c₀ :: c₁ :: c₂ :: c₃ :: v₁ :: v₀ :: rssi :: lqi :: tempInt ::
      tempFrac :: _ =>
    some
      { devNum, actionButton, lqi, tempFrac
        code := [c₀, c₁, c₂, c₃]
        batteryVoltage := ofBytes [v₁, v₀]
        rssi := rssi.toInt8
        tempInt := tempInt.toInt8 }
  | _ => none

/-! ## Devices -/

/-- The classes of devices that the check for a low battery tells apart. -/
inductive Classification where
  | keyfob
  | keypad
  | other
  deriving DecidableEq

/-- What the check for a low battery keeps from one message to the next. -/
structure Battery where
  preventLatchCount : Nat
  preventLatchWasReset : Bool
  lowBatteryCount : Nat
  recentTamper : Bool
  recentTamperRestore : Bool
  lowBatteryLatched : Bool
  deriving DecidableEq

structure LegacyDevice where
  isMainsPowered : Bool
  isBatteryBackedUp : Bool
  devType : Nat
  classification : Classification
  lowBatteryVoltage : Nat
  firmwareUpgradePending : Bool
  inBootloader : Bool
  legacyDeviceSeqNum : UInt8
  battery : Battery
  deriving DecidableEq

def isCoSensor (devType : Nat) : Bool := devType ∈ [0x0F, 0x16, 0x17, 0x1D, 0x26, 0x34]

def isSmokeSensor (devType : Nat) : Bool := devType ∈ [0x02, 0x13, 0x1A, 0x1B, 0x25]

/-! ## Low batteries -/

def lowBatteryCountThreshold : Nat := 5

def sizeOfSensorFifo : Nat := 16

def isLowBatteryForSmokeOrCO (device : LegacyDevice) (status : StatusMessage) : Bool :=
  status.lowBattery && (isCoSensor device.devType || isSmokeSensor device.devType)

def checkForLatchPrevention (lowBatteryVoltage : Nat) (battery : Battery) (status : StatusMessage) :
    Battery × Bool :=
  if battery.recentTamperRestore ∧ battery.lowBatteryLatched = false ∧
      status.batteryVoltage < lowBatteryVoltage then
    if battery.preventLatchCount < sizeOfSensorFifo then
      ({ battery with preventLatchCount := battery.preventLatchCount + 1 }, true)
    else
      ({ battery with
          preventLatchCount := 0
          preventLatchWasReset := true
          recentTamperRestore := false }, false)
  else (battery, false)

/-- One more message with a low voltage. -/
def countLowBattery (battery : Battery) : Battery :=
  { battery with lowBatteryCount := (battery.lowBatteryCount + 1) % 2 ^ 16 }

/-- Latch after enough messages with a low voltage. -/
def latchIfCounted (battery : Battery) : Battery × Bool :=
  if battery.lowBatteryCount ≥ lowBatteryCountThreshold then
    if battery.preventLatchWasReset then
      ({ battery with lowBatteryCount := 0, preventLatchWasReset := false }, false)
    else ({ battery with lowBatteryLatched := true }, true)
  else (battery, false)

def checkUnlatched (lowBatteryVoltage : Nat) (smokeOrCO : Bool) (battery : Battery)
    (status : StatusMessage) : Battery × Bool :=
  if smokeOrCO then ({ battery with lowBatteryLatched := true }, true)
  else if status.batteryVoltage < lowBatteryVoltage then latchIfCounted (countLowBattery battery)
  else
    ({ battery with
        lowBatteryCount := 0
        preventLatchCount := 0
        recentTamperRestore := false
        recentTamper := false }, false)

/-- A tamper restore may mean a new battery. -/
def checkLatched (smokeOrCO : Bool) (battery : Battery) (status : StatusMessage) : Battery × Bool :=
  if status.tamper ∧ battery.recentTamper = false then
    ({ battery with recentTamper := true, recentTamperRestore := false }, true)
  else if status.tamper = false ∧ battery.recentTamper then
    ({ battery with
        lowBatteryLatched := smokeOrCO
        recentTamper := false
        recentTamperRestore := true }, smokeOrCO)
  else (battery, true)

def checkKeyfobKeypadForLowBattery (lowBatteryVoltage : Nat) (battery : Battery)
    (status : StatusMessage) : Battery × Bool :=
  if status.batteryVoltage < lowBatteryVoltage then
    (countLowBattery battery,
      (countLowBattery battery).lowBatteryCount ≥ lowBatteryCountThreshold)
  else ({ battery with lowBatteryCount := 0 }, false)

/-- The latching of sensors with a tamper switch. -/
def checkSensorForLowBattery (device : LegacyDevice) (status : StatusMessage) : Battery × Bool :=
  match checkForLatchPrevention device.lowBatteryVoltage device.battery status with
  | (battery, latchPrevented) =>
    if latchPrevented && !isLowBatteryForSmokeOrCO device status then
      ({ battery with lowBatteryLatched := false }, false)
    else if battery.lowBatteryLatched then
      checkLatched (isLowBatteryForSmokeOrCO device status) battery status
    else
      checkUnlatched device.lowBatteryVoltage
        (isLowBatteryForSmokeOrCO device status) battery status

def checkDeviceForLowBattery (device : LegacyDevice) (status : StatusMessage) : Battery × Bool :=
  if device.isMainsPowered ∧ device.isBatteryBackedUp = false then (device.battery, false)
  else if device.classification = .keyfob ∨ device.classification = .keypad then
    checkKeyfobKeypadForLowBattery device.lowBatteryVoltage device.battery status
  else checkSensorForLowBattery device status

/-! ## Handlers -/

/-- What the rest of the service gets to see of a command. -/
inductive Report where
  | updateResource (resourceId value : CString)
  | deviceStatusChanged (endpointId : UInt8) (status : StatusMessage)
  | handleKeyfobMessage (endpointId : UInt8) (message : KeyfobMessage)
  | handleKeypadMessage (endpointId : UInt8) (message : KeypadMessage)
  deriving DecidableEq

/-- Which callbacks are not NULL. -/
structure Callbacks where
  deviceStatusChanged : Bool
  handleKeyfobMessage : Bool
  handleKeypadMessage : Bool

structure ReceivedClusterCommand where
  eui64 : UInt64
  sourceEndpoint : UInt8
  clusterId : UInt16
  commandId : UInt8
  mfgSpecific : Bool
  mfgCode : UInt16
  seqNum : UInt8
  /-- Empty for NULL. -/
  commandData : List UInt8
  /-- What the variable for the status holds before it is filled. -/
  stack : StatusMessage

def legacyDeviceUpdateCommonResources (status : StatusMessage) (isBatteryLow : Bool) :
    List Report :=
  [.updateResource "feLqi".toList (decimal status.lqi.toNat),
    .updateResource "feRssi".toList (decimalInt status.rssi.toInt),
    .updateResource "lowBatt".toList (if isBatteryLow then "true".toList else "false".toList),
    .updateResource "battVolts".toList (decimal status.batteryVoltage),
    .updateResource "temp".toList (decimalInt status.temperature)]

/-- The battery of the device after a command, and what is reported. -/
structure Handled where
  battery : Battery
  reports : List Report
  deriving DecidableEq

def handleDeviceStatusMessage (callbacks : Callbacks) (device : LegacyDevice)
    (command : ReceivedClusterCommand) : Handled :=
  match parseDeviceStatus command.sourceEndpoint command.commandData command.stack with
  | some status =>
    { battery := (checkDeviceForLowBattery device status).1
      reports :=
        legacyDeviceUpdateCommonResources status (checkDeviceForLowBattery device status).2 ++
          if callbacks.deviceStatusChanged then
            [.deviceStatusChanged command.sourceEndpoint status]
          else [] }
  | none => ⟨device.battery, []⟩

/-- The part of a status that a keyfob sends. -/
def KeyfobMessage.status (message : KeyfobMessage) (stack : StatusMessage) : StatusMessage :=
  { stack with
    lqi := message.lqi
    rssi := message.rssi
    batteryVoltage := message.batteryVoltage }

def handleKeyfobEventMessage (callbacks : Callbacks) (device : LegacyDevice)
    (command : ReceivedClusterCommand) : Handled :=
  if callbacks.handleKeyfobMessage then
    match parseKeyfobMessage command.commandData with
    | some message =>
      { battery := (checkDeviceForLowBattery device (message.status command.stack)).1
        reports :=
          legacyDeviceUpdateCommonResources (message.status command.stack)
              (checkDeviceForLowBattery device (message.status command.stack)).2 ++
            [.handleKeyfobMessage command.sourceEndpoint message] }
    | none => ⟨device.battery, []⟩
  else ⟨device.battery, []⟩

def handleKeypadEventMessage (callbacks : Callbacks) (device : LegacyDevice)
    (command : ReceivedClusterCommand) : Handled :=
  if callbacks.handleKeypadMessage then
    match parseKeypadMessage command.commandData with
    | some message => ⟨device.battery, [.handleKeypadMessage command.sourceEndpoint message]⟩
    | none => ⟨device.battery, []⟩
  else ⟨device.battery, []⟩

/-- The commands with a status or an event. -/
inductive Content where
  | status
  | checkin
  | keyfob
  | keypad
  deriving DecidableEq

/-- `DEVICE_STATUS`, `DEVICE_CHECKIN`, `DEVICE_KEYFOB_EVENT` and `DEVICE_KEYPAD_EVENT`. -/
def contentOf (commandId : UInt8) : Option Content :=
  if commandId = 0x04 then some .status
  else if commandId = 0x05 then some .checkin
  else if commandId = 0x09 then some .keyfob
  else if commandId = 0x0A then some .keypad
  else none

/-- The switch of `handleClusterCommand`. -/
def handle (callbacks : Callbacks) (device : LegacyDevice) (command : ReceivedClusterCommand) :
    Handled :=
  match contentOf command.commandId with
  | some .status => handleDeviceStatusMessage callbacks device command
  -- a check-in is processed like a status
  | some .checkin => handleDeviceStatusMessage callbacks device command
  | some .keyfob => handleKeyfobEventMessage callbacks device command
  | some .keypad => handleKeypadEventMessage callbacks device command
  | none => ⟨device.battery, []⟩

def isLegacyCommand (command : ReceivedClusterCommand) : Bool :=
  command.clusterId = 0x0500 ∧ command.mfgSpecific ∧
    (command.mfgCode = 0x10A0 ∨ command.mfgCode = 0x4256)

def legacySeqNumRolloverMax : UInt8 := 243

/-- The check of the sequence number. -/
def inSequence (last seqNum : UInt8) : Bool :=
  (seqNum - last ≤ legacySeqNumRolloverMax ∨ last = 0) ∧ seqNum ≠ last

def LegacyDevice.leaveBootloader (device : LegacyDevice) : LegacyDevice :=
  if device.inBootloader then { device with inBootloader := false, firmwareUpgradePending := false }
  else device

def LegacyDevice.checkSequence (device : LegacyDevice) (seqNum : UInt8) : LegacyDevice :=
  if inSequence device.legacyDeviceSeqNum seqNum then { device with legacyDeviceSeqNum := seqNum }
  else device

structure Outcome where
  eui64 : UInt64
  /-- What the check of the sequence number said, for a known device. -/
  aceAndZoneShouldProcess : Option Bool
  reports : List Report
  deriving DecidableEq

abbrev LegacyDevices := IcHashMap UInt64 LegacyDevice

def handleClusterCommand (callbacks : Callbacks) (devices : LegacyDevices)
    (command : ReceivedClusterCommand) : LegacyDevices × Outcome :=
  if isLegacyCommand command then
    match hashMapGet devices command.eui64 with
    | some device =>
      match handle callbacks (device.leaveBootloader.checkSequence command.seqNum) command with
      | ⟨battery, reports⟩ =>
        (hashMapModify devices command.eui64 fun device =>
            { device.leaveBootloader.checkSequence command.seqNum with battery := battery },
          ⟨command.eui64, some (inSequence device.legacyDeviceSeqNum command.seqNum), reports⟩)
    | none => (devices, ⟨command.eui64, none, []⟩)
  else (devices, ⟨command.eui64, none, []⟩)

def step (callbacks : Callbacks) (devices : LegacyDevices) (command : ReceivedClusterCommand) :
    Option (LegacyDevices × Outcome) :=
  some (handleClusterCommand callbacks devices command)

/-! ## Which commands have an effect -/

/-- The content of the command can be read, and there is somebody to read it. -/
def Readable (callbacks : Callbacks) (command : ReceivedClusterCommand) : Bool :=
  match contentOf command.commandId with
  | some .status | some .checkin =>
    (parseDeviceStatus command.sourceEndpoint command.commandData command.stack).isSome
  | some .keyfob => callbacks.handleKeyfobMessage && (parseKeyfobMessage command.commandData).isSome
  | some .keypad => callbacks.handleKeypadMessage && (parseKeypadMessage command.commandData).isSome
  | none => false

section

variable {callbacks : Callbacks} {device : LegacyDevice} {devices : LegacyDevices}
  {command : ReceivedClusterCommand}

/-- A command that can be read is reported, and any other does nothing to the battery either. -/
theorem handle_cases :
    (Readable callbacks command = true ∧ (handle callbacks device command).reports ≠ []) ∨
    (Readable callbacks command = false ∧
      handle callbacks device command = ⟨device.battery, []⟩) := by
  unfold Readable handle
  cases contentOf command.commandId with
  | none => exact .inr ⟨rfl, rfl⟩
  | some content =>
    cases content with
    | status | checkin =>
      dsimp only
      unfold handleDeviceStatusMessage
      split
      · exact .inl ⟨by simp [*], List.cons_ne_nil _ _⟩
      · exact .inr ⟨by simp [*], rfl⟩
    | keyfob | keypad =>
      dsimp only
      first | unfold handleKeyfobEventMessage | unfold handleKeypadEventMessage
      split
      · split
        · exact .inl ⟨by simp [*], List.cons_ne_nil _ _⟩
        · exact .inr ⟨by simp [*], rfl⟩
      · exact .inr ⟨by simp [*], rfl⟩

/-- What the check for a low battery knows of a device. -/
def batteryOf (devices : LegacyDevices) (eui64 : UInt64) : Option Battery :=
  (hashMapGet devices eui64).map LegacyDevice.battery

/-- The command is one of a known device, and the check of its number fails. -/
def Stale (devices : LegacyDevices) (command : ReceivedClusterCommand) : Prop :=
  isLegacyCommand command = true ∧ ∃ device, hashMapGet devices command.eui64 = some device ∧
    inSequence device.legacyDeviceSeqNum command.seqNum = false

/-- The command changes nothing about batteries, and nothing is reported. -/
def Ignored (callbacks : Callbacks) (devices : LegacyDevices) (command : ReceivedClusterCommand) :
    Prop :=
  (handleClusterCommand callbacks devices command).2.reports = [] ∧
    ∀ eui64, batteryOf (handleClusterCommand callbacks devices command).1 eui64 =
      batteryOf devices eui64

section

variable (hlegacy : isLegacyCommand command = true)
  (hdevice : hashMapGet devices command.eui64 = some device)
include hlegacy hdevice

theorem handleClusterCommand_known :
    handleClusterCommand callbacks devices command =
      (hashMapModify devices command.eui64 fun d =>
          { d.leaveBootloader.checkSequence command.seqNum with
            battery := (handle callbacks
              (device.leaveBootloader.checkSequence command.seqNum) command).battery },
        ⟨command.eui64, some (inSequence device.legacyDeviceSeqNum command.seqNum),
          (handle callbacks (device.leaveBootloader.checkSequence command.seqNum)
            command).reports⟩) := by
  rw [handleClusterCommand, if_pos hlegacy, hdevice]

/-- The number of a command makes no difference to whether it is ignored. -/
theorem ignored_iff : Ignored callbacks devices command ↔ Readable callbacks command = false := by
  have hbattery :
      (device.leaveBootloader.checkSequence command.seqNum).battery = device.battery := by
    unfold LegacyDevice.checkSequence LegacyDevice.leaveBootloader
    split <;> split <;> rfl
  unfold Ignored
  rw [handleClusterCommand_known hlegacy hdevice]
  obtain ⟨hreadable, hreports⟩ | ⟨hunreadable, hhandled⟩ := @handle_cases callbacks
    (device.leaveBootloader.checkSequence command.seqNum) command
  · rw [hreadable]
    exact iff_of_false (fun h => hreports h.1) Bool.noConfusion
  · rw [hunreadable, hhandled, hbattery]
    refine iff_of_true ⟨rfl, fun eui64 => ?_⟩ rfl
    rw [batteryOf, batteryOf, hashMapGet_modify]
    split
    · rename_i heq
      rw [heq, hdevice]
      rfl
    · rfl

end

end

/-! ## Whole runs -/

/-- A command that is tossed cannot be read. -/
def TossedUnread (callbacks : Callbacks) (devices : LegacyDevices)
    (command : ReceivedClusterCommand) : Prop :=
  Stale devices command → Readable callbacks command = false

instance (devices : LegacyDevices) (command : ReceivedClusterCommand) :
    Decidable (Stale devices command) := by
  delta Stale
  infer_instance

instance (callbacks : Callbacks) (devices : LegacyDevices) (command : ReceivedClusterCommand) :
    Decidable (TossedUnread callbacks devices command) :=
  inferInstanceAs (Decidable (_ → _))

/-- The last outcome of a device that reported something. -/
def lastReported (eui64 : UInt64) (outcomes : List Outcome) : Option Outcome :=
  (outcomes.filter fun outcome => outcome.eui64 == eui64 && !outcome.reports.isEmpty).getLast?

/-- The outcomes of commands that were accepted. -/
def accepted (outcomes : List Outcome) : List Outcome :=
  outcomes.filter fun outcome => outcome.aceAndZoneShouldProcess == some true

/-- The check fails for the number of the last command, and for numbers up to twelve before it. -/
theorem inSequence_eq_false_iff (last seqNum : UInt8) :
    inSequence last seqNum = false ↔
      seqNum = last ∨ last ≠ 0 ∧ 243 < (seqNum.toNat + 256 - last.toNat) % 256 := by
  have hdelta : (seqNum - last).toNat = (seqNum.toNat + 256 - last.toNat) % 256 := by
    have hsub := UInt8.toNat_sub seqNum last
    have hlast := last.toNat_lt
    omega
  have hle : seqNum - last ≤ legacySeqNumRolloverMax ↔
      ¬ 243 < (seqNum.toNat + 256 - last.toNat) % 256 := by
    rw [UInt8.le_iff_toNat_le, hdelta, Nat.not_lt]
    rfl
  rw [inSequence, decide_eq_false_iff_not, hle]
  by_cases hsame : seqNum = last <;> by_cases hzero : last = 0 <;> simp [hsame, hzero]

section

variable {callbacks : Callbacks} {devices : LegacyDevices} {command : ReceivedClusterCommand}

/-- What is reported is accepted exactly if tossed commands are unreadable. -/
theorem reported_accepted_iff :
    ((handleClusterCommand callbacks devices command).2.reports ≠ [] →
      (handleClusterCommand callbacks devices command).2.aceAndZoneShouldProcess = some true) ↔
    TossedUnread callbacks devices command := by
  unfold TossedUnread Stale
  cases hlegacy : isLegacyCommand command with
  | false => simp [handleClusterCommand, hlegacy]
  | true =>
    cases hdevice : hashMapGet devices command.eui64 with
    | none => simp [handleClusterCommand, hlegacy, hdevice]
    | some device =>
      rw [handleClusterCommand_known hlegacy hdevice]
      obtain ⟨hreadable, hreports⟩ | ⟨hunreadable, hhandled⟩ := @handle_cases callbacks
        (device.leaveBootloader.checkSequence command.seqNum) command
      · simp [hreadable, hreports]
      · simp [hunreadable, hhandled]

/-- If only accepted commands are reported, the last report is that of an accepted command. -/
theorem lastReported_accepted {outcomes : List Outcome}
    (h : ∀ outcome ∈ outcomes, outcome.reports ≠ [] →
      outcome.aceAndZoneShouldProcess = some true) (eui64 : UInt64) :
    lastReported eui64 outcomes = lastReported eui64 (accepted outcomes) := by
  unfold lastReported accepted
  rw [List.filter_filter]
  congr 1
  apply List.filter_congr
  intro outcome hmem
  have hreported := h outcome hmem
  cases hreports : outcome.reports with
  | nil => simp
  | cons report rest =>
    rw [hreported (by rw [hreports]; exact List.cons_ne_nil _ _)]
    simp

end

/-- A command is tossed if its number is that of the last one, or not far enough from it; but
tossed or not, it has no effect exactly if it cannot be read.  In a run everything that is
reported comes from accepted commands exactly if all tossed commands cannot be read, and then the
last report of every device is that of the last accepted command that reported anything. -/
theorem stale_ignored_iff (callbacks : Callbacks) :
    (∀ devices command device, isLegacyCommand command = true →
      hashMapGet devices command.eui64 = some device →
      ((handleClusterCommand callbacks devices command).2.aceAndZoneShouldProcess = some false ↔
        command.seqNum = device.legacyDeviceSeqNum ∨ device.legacyDeviceSeqNum ≠ 0 ∧
          243 < (command.seqNum.toNat + 256 - device.legacyDeviceSeqNum.toNat) % 256) ∧
      (Ignored callbacks devices command ↔ Readable callbacks command = false)) ∧
    ∀ devices commands devices' outcomes,
      run (step callbacks) devices commands = some (devices', outcomes) →
      ((∀ outcome ∈ outcomes, outcome.reports ≠ [] →
          outcome.aceAndZoneShouldProcess = some true) ↔
        Guarded (step callbacks) (TossedUnread callbacks) devices commands) ∧
      (Guarded (step callbacks) (TossedUnread callbacks) devices commands →
        ∀ eui64, lastReported eui64 outcomes = lastReported eui64 (accepted outcomes)) := by
  refine ⟨fun devices command device hlegacy hdevice => ⟨?_, ignored_iff hlegacy hdevice⟩,
    fun devices commands devices' outcomes hrun => ?_⟩
  · rw [handleClusterCommand_known hlegacy hdevice, Option.some.injEq]
    exact inSequence_eq_false_iff _ _
  · have hiff : (∀ outcome ∈ outcomes, outcome.reports ≠ [] →
        outcome.aceAndZoneShouldProcess = some true) ↔
        Guarded (step callbacks) (TossedUnread callbacks) devices commands := by
      refine run_outputs_iff_guarded (fun devices command devices' outcome hstep => ?_) hrun
      obtain rfl := congrArg Prod.snd (Option.some.inj hstep)
      exact reported_accepted_iff
    exact ⟨hiff, fun hguarded => lastReported_accepted (hiff.mpr hguarded)⟩

/-- A door sensor whose last command had the number 9. -/
def doorSensor : LegacyDevice where
  isMainsPowered := false
  isBatteryBackedUp := false
  devType := 1
  classification := .other
  lowBatteryVoltage := 2700
  firmwareUpgradePending := false
  inBootloader := false
  legacyDeviceSeqNum := 9
  battery := ⟨0, false, 0, false, false, false⟩

def oneSensor : LegacyDevices := (hashMapPut hashMapCreate 7 doorSensor).1

def noStatus : StatusMessage := ⟨0, 0, 0, 0, 0, 0, 0, false, 0, 0, 0⟩

/-- A `DEVICE_STATUS` of the door sensor. -/
def statusCommand (seqNum : UInt8) (commandData : List UInt8) : ReceivedClusterCommand :=
  ⟨7, 1, 0x0500, 0x04, true, 0x10A0, seqNum, commandData, noStatus⟩

/-- A status at three volts with the first byte of the zone status. -/
def zoneStatus (byte1 : UInt8) : List UInt8 := [1, byte1, 0, 0x0B, 0xB8, 200, 255, 21, 5]

/-- The tossed command is too short to be read. -/
def shortCommand : List ReceivedClusterCommand :=
  [statusCommand 10 (zoneStatus 1), statusCommand 9 [1]]

theorem stale_ignored_iff_shortCommand :
    ∃ devices outcomes, run (step ⟨true, true, true⟩) oneSensor shortCommand =
        some (devices, outcomes) ∧
      outcomes.map Outcome.aceAndZoneShouldProcess = [some true, some false] ∧
      Guarded (step ⟨true, true, true⟩) (TossedUnread ⟨true, true, true⟩) oneSensor shortCommand ∧
      lastReported 7 outcomes = lastReported 7 (accepted outcomes) := by
  obtain ⟨devices, outcomes, hrun⟩ : ∃ devices outcomes,
      run (step ⟨true, true, true⟩) oneSensor shortCommand = some (devices, outcomes) :=
    ⟨_, _, rfl⟩
  have hverdicts : (run (step ⟨true, true, true⟩) oneSensor shortCommand).map
      (fun r => r.2.map Outcome.aceAndZoneShouldProcess) = some [some true, some false] := by
    decide +kernel
  have hguarded : Guarded (step ⟨true, true, true⟩) (TossedUnread ⟨true, true, true⟩) oneSensor
      shortCommand := by
    decide +kernel
  rw [hrun] at hverdicts
  obtain ⟨-, hlast⟩ := (stale_ignored_iff ⟨true, true, true⟩).2 _ _ _ _ hrun
  exact ⟨devices, outcomes, hrun, Option.some.inj hverdicts, hguarded, hlast hguarded 7⟩

/-- The door opens with the number 10; the command with the number 9, in which it was closed,
comes later, is tossed, and is reported last. -/
theorem stale_status_reported :
    ∃ devices outcomes,
      run (step ⟨true, true, true⟩) oneSensor
        [statusCommand 10 (zoneStatus 1), statusCommand 9 (zoneStatus 0)] =
          some (devices, outcomes) ∧
      outcomes.map Outcome.aceAndZoneShouldProcess = [some true, some false] ∧
      ((lastReported 7 outcomes).map fun outcome => outcome.reports.getLast?) =
        some (some (.deviceStatusChanged 1 ⟨1, 0, 0, 3000, -56, 255, 2150, false, 0, 0, 0⟩)) :=
  ⟨_, _, rfl, by decide +kernel, by decide +kernel⟩

end ZilkerSdk.Device.LegacySecurity
