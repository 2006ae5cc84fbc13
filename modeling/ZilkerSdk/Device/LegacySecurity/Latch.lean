import ZilkerSdk.Device.LegacySecurity

/-!
# The latch for a low battery

`checkDeviceForLowBattery` latches a low battery after five reports with a low voltage, or for
smoke and CO sensors by a bit of the report.  A tamper and its restore release the latch.  The
counts are not cleared while the battery is latched.  But the restore that releases it is noted,
and after the reports that are then let pass one more round of counting is thrown away, so no old
count is used.

A history lists the latest event first.
-/

namespace ZilkerSdk.Device.LegacySecurity

inductive BatteryEvent where
  | report (status : StatusMessage)
  /-- The process starts again. -/
  | restart

/-- Only the metadata is left after a restart. -/
def Battery.restart (battery : Battery) : Battery :=
  { battery with preventLatchCount := 0, preventLatchWasReset := false, lowBatteryCount := 0 }

/-- The battery after a history.  There are no metadata at first. -/
def batteryAfter (device : LegacyDevice) : List BatteryEvent → Battery
  | [] => ⟨0, false, 0, false, false, false⟩
  | .report status :: past =>
    (checkDeviceForLowBattery { device with battery := batteryAfter device past } status).1
  | .restart :: past => (batteryAfter device past).restart

/-- The number of reports with a low voltage since the last one with another voltage. -/
def lowReports (device : LegacyDevice) : List BatteryEvent → Nat
  | [] => 0
  | .report status :: past =>
    if status.batteryVoltage < device.lowBatteryVoltage then lowReports device past + 1 else 0
  | .restart :: past => lowReports device past

/-- A report with tamper has come since the battery was latched. -/
def tamperedSinceLatched (device : LegacyDevice) : List BatteryEvent → Bool
  | [] => false
  | .report status :: past =>
    (batteryAfter device past).lowBatteryLatched &&
      (status.tamper || tamperedSinceLatched device past)
  | .restart :: past => tamperedSinceLatched device past

/-- The device has a battery and is no keyfob or keypad. -/
structure IsSensor (device : LegacyDevice) : Prop where
  battery : device.isMainsPowered = true → device.isBatteryBackedUp = true
  notKeyfob : device.classification ≠ .keyfob
  notKeypad : device.classification ≠ .keypad

section

variable {device : LegacyDevice} {status : StatusMessage} {past : List BatteryEvent}

theorem IsSensor.batteryAfter_report (h : IsSensor device) :
    batteryAfter device (.report status :: past) =
      (checkSensorForLowBattery { device with battery := batteryAfter device past } status).1 := by
  rw [batteryAfter, checkDeviceForLowBattery, if_neg, if_neg]
  · rintro (hkeyfob | hkeypad)
    · exact h.notKeyfob hkeyfob
    · exact h.notKeypad hkeypad
  · rintro ⟨hmains, hbackup⟩
    exact Bool.noConfusion (hbackup.symm.trans (h.battery hmains))

/-- A battery that is not latched gets latched by the bit, or by a count to which nothing of an
earlier latch has been added; and what is counted afterwards is the same. -/
theorem checkSensorForLowBattery_of_not_latched (h : device.battery.lowBatteryLatched = false) :
    let battery := device.battery
    let battery' := (checkSensorForLowBattery device status).1
    let Counted := status.batteryVoltage < device.lowBatteryVoltage ∧
      battery.recentTamperRestore = false ∧ battery.preventLatchWasReset = false ∧
      battery'.lowBatteryCount ≤ battery.lowBatteryCount + 1
    (battery.recentTamper = false → battery'.recentTamper = false) ∧
    (battery'.lowBatteryLatched = true → isLowBatteryForSmokeOrCO device status = true ∨
      Counted ∧ 5 ≤ battery'.lowBatteryCount) ∧
    (battery'.lowBatteryLatched = false → battery'.recentTamperRestore = false →
      battery'.preventLatchWasReset = false → battery'.lowBatteryCount = 0 ∨ Counted) := by
  unfold checkSensorForLowBattery checkForLatchPrevention checkUnlatched latchIfCounted
    countLowBattery lowBatteryCountThreshold
  cases hsmoke : isLowBatteryForSmokeOrCO device status with
  | true => grind
  | false =>
    by_cases hlow : status.batteryVoltage < device.lowBatteryVoltage
    · -- after a restore the report is let pass, or the round of counting will be thrown away
      cases hrestore : device.battery.recentTamperRestore with
      | true => grind
      | false => grind
    · grind

/-- A latched battery is released by a restore. -/
theorem checkSensorForLowBattery_of_latched (h : device.battery.lowBatteryLatched = true) :
    let battery := device.battery
    let battery' := (checkSensorForLowBattery device status).1
    (battery'.lowBatteryLatched = false → status.tamper = false ∧ battery.recentTamper = true ∧
      battery'.recentTamper = false ∧ battery'.recentTamperRestore = true) ∧
    (battery'.recentTamper = true → status.tamper = true ∨ battery.recentTamper = true) := by
  unfold checkSensorForLowBattery checkForLatchPrevention checkLatched
  grind

/-- What the metadata and the counts say about the reports. -/
structure LatchInv (device : LegacyDevice) (past : List BatteryEvent) (battery : Battery) :
    Prop where
  untampered : battery.lowBatteryLatched = false → battery.recentTamper = false
  tampered : battery.lowBatteryLatched = true → battery.recentTamper = true →
    tamperedSinceLatched device past = true
  /-- The count of an earlier latch is not used. -/
  counted : battery.lowBatteryLatched = false → battery.recentTamperRestore = false →
    battery.preventLatchWasReset = false → battery.lowBatteryCount ≤ lowReports device past

theorem LatchInv.report (h : LatchInv device past (batteryAfter device past))
    (hsensor : IsSensor device) :
    LatchInv device (.report status :: past) (batteryAfter device (.report status :: past)) := by
  rw [hsensor.batteryAfter_report]
  cases hlatched : (batteryAfter device past).lowBatteryLatched with
  | true =>
    obtain ⟨hreleased, htamper⟩ := @checkSensorForLowBattery_of_latched
      { device with battery := batteryAfter device past } status hlatched
    refine ⟨fun h' => (hreleased h').2.2.1, fun _ h' => ?_, fun h' hrestore => ?_⟩
    · rw [tamperedSinceLatched, hlatched, Bool.true_and, Bool.or_eq_true]
      exact (htamper h').imp_right (h.tampered hlatched)
    · cases hrestore.symm.trans (hreleased h').2.2.2
  | false =>
    obtain ⟨htamper, -, hcounted⟩ := @checkSensorForLowBattery_of_not_latched
      { device with battery := batteryAfter device past } status hlatched
    have hnone := htamper (h.untampered hlatched)
    refine ⟨fun _ => hnone, fun _ h' => ?_, fun h' hrestore hreset => ?_⟩
    · cases hnone.symm.trans h'
    · obtain hzero | ⟨hlow, hrestore', hreset', hcount⟩ := hcounted h' hrestore hreset
      · exact hzero ▸ Nat.zero_le _
      · rw [lowReports, if_pos hlow]
        exact hcount.trans (Nat.succ_le_succ (h.counted hlatched hrestore' hreset'))

theorem latchInv_batteryAfter (hsensor : IsSensor device) (past : List BatteryEvent) :
    LatchInv device past (batteryAfter device past) := by
  induction past with
  | nil => exact ⟨fun _ => rfl, nofun, fun _ _ _ => Nat.le_refl 0⟩
  | cons event past ih =>
    cases event with
    | report status => exact ih.report hsensor
    | restart => exact ⟨ih.untampered, ih.tampered, fun _ _ _ => Nat.zero_le _⟩

end

/-- For a sensor with any history of reports and restarts: an event that latches the battery is a
report with the low-battery bit of a smoke or CO sensor, or it and the four reports before it had
a low voltage.  An event that releases the battery is a report without tamper, and since the battery
was latched there was a report with tamper. -/
theorem latch_sound (device : LegacyDevice) (hsensor : IsSensor device) (past : List BatteryEvent)
    (event : BatteryEvent) :
    ((batteryAfter device past).lowBatteryLatched = false →
      (batteryAfter device (event :: past)).lowBatteryLatched = true →
      ∃ status, event = .report status ∧
        (isLowBatteryForSmokeOrCO device status = true ∨ 5 ≤ lowReports device (event :: past))) ∧
    ((batteryAfter device past).lowBatteryLatched = true →
      (batteryAfter device (event :: past)).lowBatteryLatched = false →
      ∃ status, event = .report status ∧ status.tamper = false ∧
        tamperedSinceLatched device past = true) := by
  have hinv := latchInv_batteryAfter hsensor past
  cases event with
  | restart =>
    refine ⟨fun h h' => ?_, fun h h' => ?_⟩
    · cases h.symm.trans h'
    · cases h.symm.trans h'
  | report status =>
    rw [hsensor.batteryAfter_report]
    refine ⟨fun h h' => ⟨status, rfl, ?_⟩, fun h h' => ⟨status, rfl, ?_⟩⟩
    · obtain ⟨-, hset, -⟩ := @checkSensorForLowBattery_of_not_latched
        { device with battery := batteryAfter device past } status h
      refine (hset h').imp_right ?_
      rintro ⟨⟨hlow, hrestore, hreset, hcount⟩, hfive⟩
      rw [lowReports, if_pos hlow]
      exact hfive.trans (hcount.trans (Nat.succ_le_succ (hinv.counted h hrestore hreset)))
    · obtain ⟨hreleased, -⟩ := @checkSensorForLowBattery_of_latched
        { device with battery := batteryAfter device past } status h
      obtain ⟨htamper, hrecent, -⟩ := hreleased h'
      exact ⟨htamper, hinv.tampered h hrecent⟩

/-- Five reports without any voltage. -/
theorem latch_sound_fiveReports :
    (batteryAfter doorSensor (List.replicate 5 (.report noStatus))).lowBatteryLatched = true ∧
      5 ≤ lowReports doorSensor (List.replicate 5 (.report noStatus)) := by
  obtain ⟨status, heq, hbit | hfive⟩ := (latch_sound doorSensor ⟨nofun, by decide, by decide⟩
    (List.replicate 4 (.report noStatus)) (.report noStatus)).1 (by decide) (by decide)
  · cases heq
    cases hbit
  · exact ⟨by decide, hfive⟩

/-! ## Reports that come late -/

/-- One of the reports, the first of them first, latches the battery. -/
def latchedBy (device : LegacyDevice) (past : List BatteryEvent) : List StatusMessage → Bool
  | [] => false
  | status :: reports =>
    (batteryAfter device (.report status :: past)).lowBatteryLatched ||
      latchedBy device (.report status :: past) reports

section

variable {device : LegacyDevice}

section

variable {past : List BatteryEvent} (hsensor : IsSensor device)
  (hlatched : (batteryAfter device past).lowBatteryLatched = false)
  (hrestore : (batteryAfter device past).recentTamperRestore = false)
include hsensor hlatched hrestore

theorem IsSensor.batteryAfter_unlatched (status : StatusMessage) :
    batteryAfter device (.report status :: past) = (checkUnlatched device.lowBatteryVoltage
      (isLowBatteryForSmokeOrCO device status) (batteryAfter device past) status).1 := by
  rw [hsensor.batteryAfter_report]
  simp only [checkSensorForLowBattery, checkForLatchPrevention, hlatched, hrestore,
    Bool.false_eq_true, false_and, if_false, Bool.false_and]
  rfl

/-- Low reports latch the battery when they are five, unless that round of counting is thrown
away. -/
theorem IsSensor.latchedBy_iff {lows : List StatusMessage}
    (hlow : ∀ status ∈ lows, status.batteryVoltage < device.lowBatteryVoltage) (hne : lows ≠ [])
    (hcount : (batteryAfter device past).lowBatteryCount + lows.length = 5) :
    latchedBy device past lows = true ↔ (batteryAfter device past).preventLatchWasReset = false ∨
      ∃ status ∈ lows, isLowBatteryForSmokeOrCO device status = true := by
  induction lows generalizing past with
  | nil => contradiction
  | cons status lows ih =>
    have hafter := hsensor.batteryAfter_unlatched hlatched hrestore status
    cases lows with
    | nil | cons =>
      grind [latchedBy, checkUnlatched, latchIfCounted, countLowBattery, lowBatteryCountThreshold]

end

/-- The count of a keyfob or keypad has 16 bits. -/
theorem lowBatteryCount_eq
    (hkeys : device.classification = .keyfob ∨ device.classification = .keypad)
    (hbattery : device.isMainsPowered = true → device.isBatteryBackedUp = true)
    (reports : List StatusMessage) :
    (batteryAfter device (reports.map .report)).lowBatteryCount =
      lowReports device (reports.map .report) % 2 ^ 16 := by
  induction reports with
  | nil => rfl
  | cons status reports ih =>
    have hchecked : ¬ (device.isMainsPowered = true ∧ device.isBatteryBackedUp = false) :=
      fun h => by simp [hbattery h.1] at h
    simp only [List.map_cons, batteryAfter, checkDeviceForLowBattery, hchecked, hkeys, if_true,
      if_false, checkKeyfobKeypadForLowBattery, lowReports]
    split
    · simp only [countLowBattery, ih, Nat.mod_add_mod]
    · rfl

end

/-- For a sensor that is not latched and has no restore pending: a report of a good voltage and five
of a low one latch the battery exactly if no round of counting is to be thrown away, or a smoke or
CO sensor says so.  For a keyfob or keypad: the battery is reported low exactly if the last five
reports were low, unless it has no battery, or so many were low that the count has begun anew. -/
theorem low_battery_reported_iff (device : LegacyDevice) :
    (IsSensor device → ∀ past good lows,
      (batteryAfter device past).lowBatteryLatched = false →
      (batteryAfter device past).recentTamperRestore = false →
      device.lowBatteryVoltage ≤ good.batteryVoltage → lows.length = 5 →
      (∀ status ∈ lows, status.batteryVoltage < device.lowBatteryVoltage) →
      (latchedBy device past (good :: lows) = true ↔
        (batteryAfter device past).preventLatchWasReset = false ∨
          ∃ status ∈ good :: lows, isLowBatteryForSmokeOrCO device status = true)) ∧
    (device.classification = .keyfob ∨ device.classification = .keypad → ∀ past status,
      let lows := lowReports device ((status :: past).map .report)
      ((checkDeviceForLowBattery { device with battery := batteryAfter device (past.map .report) }
          status).2 = true ↔ 5 ≤ lows) ↔
        lows < 5 ∨ (device.isMainsPowered = true → device.isBatteryBackedUp = true) ∧
          5 ≤ lows % 2 ^ 16) := by
  refine ⟨fun hsensor past good lows hlatched hrestore hgood hfive hlow => ?_,
    fun hkeys past status => ?_⟩
  · have hafter := hsensor.batteryAfter_unlatched hlatched hrestore good
    rw [latchedBy, List.exists_mem_cons_iff, Bool.or_eq_true]
    cases hbit : isLowBatteryForSmokeOrCO device good with
    | true => simp [hafter, hbit, checkUnlatched]
    | false =>
      rw [hbit, checkUnlatched, if_neg Bool.false_ne_true, if_neg hgood.not_gt] at hafter
      rw [hsensor.latchedBy_iff (by rw [hafter]; exact hlatched) (by rw [hafter]) hlow
        (by rintro rfl; cases hfive) (by rw [hafter]; simpa using hfive), hafter]
      simp [hlatched]
  · have hsame : (checkDeviceForLowBattery
        { device with battery := batteryAfter device (past.map .report) } status).2 = true ↔
        (device.isMainsPowered = true → device.isBatteryBackedUp = true) ∧
          5 ≤ lowReports device ((status :: past).map .report) % 2 ^ 16 := by
      by_cases hbattery : device.isMainsPowered = true → device.isBatteryBackedUp = true
      · have := lowBatteryCount_eq hkeys hbattery past
        grind [checkDeviceForLowBattery, checkKeyfobKeypadForLowBattery, countLowBattery,
          lowReports, lowBatteryCountThreshold]
      · grind [checkDeviceForLowBattery]
    grind

def goodStatus : StatusMessage := { noStatus with batteryVoltage := 3000 }

def keyfob : LegacyDevice := { doorSensor with classification := .keyfob }

def keyfobReports : List BatteryEvent :=
  (List.replicate 4 noStatus ++ [goodStatus, noStatus]).map .report

/-- A sensor that has been low and had its process restarted, and a keyfob whose last five reports
are low. -/
theorem low_battery_reported_iff_fiveReports :
    latchedBy doorSensor [.report noStatus, .restart, .report noStatus, .report noStatus]
        (goodStatus :: List.replicate 5 noStatus) = true ∧
      (checkDeviceForLowBattery { keyfob with battery := batteryAfter keyfob keyfobReports }
        noStatus).2 = true :=
  ⟨((low_battery_reported_iff doorSensor).1 ⟨nofun, by decide, by decide⟩ _ goodStatus
      (List.replicate 5 noStatus) rfl rfl (by decide) rfl (by decide)).mpr (.inl rfl),
    (((low_battery_reported_iff keyfob).2 (.inl rfl) _ noStatus).mpr
      (.inr ⟨nofun, by decide⟩)).mpr (by decide)⟩

def smokeSensor : LegacyDevice := { doorSensor with devType := 2 }

/-- A smoke sensor has been latched by its bit and released by a tamper and its restore; after
sixteen low reports that are let pass and one that is counted, the round is still to be thrown
away. -/
def releasedSmokeSensor : List BatteryEvent :=
  List.replicate 18 (.report noStatus) ++
    [.report { noStatus with byte1 := 16 }, .report { noStatus with byte1 := 32 }]

/-- A good report and five low ones do not latch the battery. -/
theorem fifth_low_report_not_latched :
    (batteryAfter smokeSensor releasedSmokeSensor).lowBatteryLatched = false ∧
      (batteryAfter smokeSensor releasedSmokeSensor).recentTamperRestore = false ∧
      latchedBy smokeSensor releasedSmokeSensor (goodStatus :: List.replicate 5 noStatus) =
        false := by
  decide

end ZilkerSdk.Device.LegacySecurity
