import Mathlib.Data.UInt

/-!
# Delays of back-off tasks

Model of the delays in `libs/concurrent/c/src/repeatingTask.c`.  A back-off task computes its next
delay after every unsuccessful run, from the delay before.  The delay starts from zero, so the
first of them is the initial delay; each one after that is larger by the increment, and no larger
than the maximum.  The maximum is not applied to the initial delay.

The functions of the task are known by whether they are given.
-/

namespace ZilkerSdk.Concurrent.RepeatingTask

inductive RepeatingTaskType where
  | normal
  | fixedRate
  | backOff
  deriving DecidableEq

/-- What the delays of a task are computed from. -/
structure RepeatTask where
  currentDelay : UInt64
  startDelay : UInt64
  maxDelay : UInt64
  incrementDelay : UInt64
  taskType : RepeatingTaskType

/-- `initRepeatingTask` with its sanity checks. -/
def initRepeatingTask (delayAmount initDelayAmount maxDelayAmount incrementDelayAmount : UInt64)
    (func backOffRunFunc : Bool) (taskType : RepeatingTaskType) : Option RepeatTask :=
  let task := ⟨delayAmount, initDelayAmount, maxDelayAmount, incrementDelayAmount, taskType⟩
  match taskType with
  | .normal | .fixedRate => if delayAmount = 0 ∨ func = false then none else some task
  | .backOff =>
    if incrementDelayAmount = 0 ∨ initDelayAmount = 0 ∨ maxDelayAmount = 0 ∨ backOffRunFunc = false
    then none else some task

def createBackOffRepeatingTask (initDelayAmount maxDelayAmount incrementDelayAmount : UInt64)
    (runFunc : Bool) : Option RepeatTask :=
  initRepeatingTask 0 initDelayAmount maxDelayAmount incrementDelayAmount false runFunc .backOff

def calcBackOffDelayAmount (currentDelay startDelay incrementDelay maxDelay : UInt64) : UInt64 :=
  if currentDelay < startDelay then startDelay
  else if currentDelay + incrementDelay ≥ maxDelay then maxDelay
  else currentDelay + incrementDelay

/-- The delay `runRepeatTaskThread` sets after a run that was not successful. -/
def RepeatTask.nextDelay (task : RepeatTask) : UInt64 :=
  if task.taskType = .backOff then
    calcBackOffDelayAmount task.currentDelay task.startDelay task.incrementDelay task.maxDelay
  else task.currentDelay

/-- The delay that is set after so many unsuccessful runs. -/
def RepeatTask.delayAfter (task : RepeatTask) : Nat → UInt64
  | 0 => task.currentDelay
  | runs + 1 => RepeatTask.nextDelay { task with currentDelay := task.delayAfter runs }

/-- The sums up to the delay after `n + 1` runs fit in 64 bits: those of the ramp, or all. -/
def SumsFit (i c m : UInt64) (n : Nat) : Prop :=
  i.toNat + n * c.toNat < 2 ^ 64 ∨ m.toNat + c.toNat < 2 ^ 64

section

variable {i c m d : UInt64}

theorem calcBackOffDelayAmount_start (hi : i ≠ 0) : calcBackOffDelayAmount 0 i c m = i :=
  if_pos (UInt64.pos_iff_ne_zero.mpr hi)

theorem calcBackOffDelayAmount_toNat (hstart : i.toNat ≤ d.toNat)
    (hsum : d.toNat + c.toNat < 2 ^ 64) :
    (calcBackOffDelayAmount d i c m).toNat = min (d.toNat + c.toNat) m.toNat := by
  have hadd : (d + c).toNat = d.toNat + c.toNat := by rw [UInt64.toNat_add, Nat.mod_eq_of_lt hsum]
  unfold calcBackOffDelayAmount
  simp only [ge_iff_le, UInt64.lt_iff_toNat_lt, UInt64.le_iff_toNat_le, hadd]
  rw [if_neg (by omega)]
  split <;> omega

/-- Induction over the runs: after the first one the delay is never below the initial one. -/
theorem delayAfter_ramp (hi : i ≠ 0) (hle : i ≤ m) (n : Nat) (hfit : SumsFit i c m n) :
    (RepeatTask.delayAfter ⟨0, i, m, c, .backOff⟩ (n + 1)).toNat =
      min (i.toNat + n * c.toNat) m.toNat := by
  have hle' := UInt64.le_iff_toNat_le.mp hle
  induction n with
  | zero =>
    show (calcBackOffDelayAmount 0 i c m).toNat = _
    rw [calcBackOffDelayAmount_start hi]
    omega
  | succ n ih =>
    rw [SumsFit, Nat.succ_mul] at hfit
    have hdelay := ih (by unfold SumsFit; omega)
    show (calcBackOffDelayAmount (RepeatTask.delayAfter _ (n + 1)) i c m).toNat = _
    rw [calcBackOffDelayAmount_toNat (by omega) (by omega), hdelay, Nat.succ_mul]
    omega

end

/-- For all parameters that are accepted, the delays follow the ramp, never exceed the maximum and
never decrease, exactly if the initial delay is not above the maximum. -/
theorem backOff_ramp_iff {i c m : UInt64} (hi : i ≠ 0) (hc : c ≠ 0) (hm : m ≠ 0) :
    ∃ task, createBackOffRepeatingTask i m c true = some task ∧
      ((∀ n, SumsFit i c m n →
        (task.delayAfter (n + 1)).toNat = min (i.toNat + n * c.toNat) m.toNat ∧
        task.delayAfter (n + 1) ≤ m ∧
        (SumsFit i c m (n + 1) → task.delayAfter (n + 1) ≤ task.delayAfter (n + 2))) ↔ i ≤ m) := by
  refine ⟨⟨0, i, m, c, .backOff⟩,
    by simp [createBackOffRepeatingTask, initRepeatingTask, hi, hc, hm],
    fun h => ?_, fun hle n hfit => ?_⟩
  · obtain ⟨-, hle, -⟩ := h 0 (.inl (by simpa using i.toNat_lt))
    exact calcBackOffDelayAmount_start hi ▸ hle
  · have hdelay := delayAfter_ramp hi hle n hfit
    rw [UInt64.le_iff_toNat_le, UInt64.le_iff_toNat_le]
    refine ⟨hdelay, by omega, fun hnext => ?_⟩
    rw [hdelay, delayAfter_ramp hi hle (n + 1) hnext, Nat.succ_mul]
    omega

theorem backOff_ramp_iff_accepted : ∃ task, createBackOffRepeatingTask 5 12 5 true = some task ∧
    (task.delayAfter 3).toNat = min (5 + 2 * 5) 12 := by
  obtain ⟨task, htask, hiff⟩ := backOff_ramp_iff (i := 5) (c := 5) (m := 12) (by decide) (by decide)
    (by decide)
  exact ⟨task, htask, (hiff.mpr (by decide) 2 (.inl (by decide))).1⟩

/-- The first delay is above the maximum, and the next one is smaller. -/
theorem delay_above_maximum : (createBackOffRepeatingTask 10 3 5 true).map
    (fun task => [task.delayAfter 1, task.delayAfter 2]) = some [10, 3] := by
  decide

end ZilkerSdk.Concurrent.RepeatingTask
