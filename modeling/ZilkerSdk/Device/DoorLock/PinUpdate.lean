import ZilkerSdk.Device.DoorLock.Model

/-!
# A reported update of pin codes

What the lock sees of a call depends on the lock alone, and not on how the threads take turns:
the exchange for the clearing, and if that was answered with success the exchanges for the
users, one after another (`conversation`).  The invariant `State.Sound` says for each place
where the two threads can be how much of it has been seen.
-/

namespace ZilkerSdk.Device.DoorLock

open Lib Option
open List hiding beq_eq_decide

/-! ## What the lock sees -/

/-- What the lock sees of one command. -/
def exchange (command : Command) : Behaviour → List Note
  | .unsent => []
  | .answered status => [.sent command, .answered command status]
  | .silent _ => [.sent command]

/-- What the lock sees of the users, if `n` commands were given to the radio before. -/
def exchanges (lock : Nat → Behaviour) : Nat → List DoorLockClusterUser → List Note
  | _, [] => []
  | n, user :: users => exchange (setPin user) (lock n) ++ exchanges lock (n + 1) users

/-- What the lock sees of a call that does not stop after the clearing. -/
def conversation (lock : Nat → Behaviour) (users : List DoorLockClusterUser) : List Note :=
  exchange doorLockClusterClearAllPinCodes (lock 0) ++ exchanges lock 1 users

/-- Every pin is set. -/
def allSet (lock : Nat → Behaviour) : Nat → List DoorLockClusterUser → Bool
  | _, [] => true
  | n, _ :: users => decide (lock n = .answered 0) && allSet lock (n + 1) users

theorem allSet_eq_true_iff (lock : Nat → Behaviour) (n : Nat) (users : List DoorLockClusterUser) :
    allSet lock n users = true ↔ ∀ i < users.length, lock (n + i) = .answered 0 := by
  induction users generalizing n with
  | nil => simp [allSet]
  | cons user users ih =>
    rw [allSet, Bool.and_eq_true, decide_eq_true_eq, ih, length_cons]
    constructor
    · intro h i hi
      match i with
      | 0 => exact h.1
      | i + 1 =>
        rw [show n + (i + 1) = n + 1 + i by omega]
        exact h.2 i (by omega)
    · intro h
      refine ⟨h 0 (by omega), fun i hi => ?_⟩
      rw [show n + 1 + i = n + (i + 1) by omega]
      exact h (i + 1) (by omega)

/-- The answer that the lock is still to give in time. -/
def Sent.toCome (sent : Sent) : List Note :=
  match sent.behaviour, sent.delivered with
  | .answered status, false => [.answered sent.command status]
  | _, _ => []

/-- No answer that comes in time is missing. -/
def State.Settled (s : State) : Prop := ∀ sent, s.sent = some sent → sent.toCome = []

theorem toCome_delivered (command : Command) (behaviour : Behaviour) :
    (⟨command, behaviour, true⟩ : Sent).toCome = [] := by
  cases behaviour <;> rfl

variable {command : Command} {timedOut : Bool} {sent : Sent} {responseType : DoorLockResponseType}
  {user : DoorLockClusterUser} {status : UInt8}

theorem send_cases {lock : Nat → Behaviour} {s s' : State} {ok : Bool}
    (h : s.send lock command = (s', ok)) :
    (ok = false ∧ lock s.issued = .unsent ∧ s' = { s with issued := s.issued + 1 }) ∨
      (ok = true ∧ s' = { s with
        issued := s.issued + 1
        sent := some ⟨command, lock s.issued, false⟩
        traffic := s.traffic ++ [.sent command] } ∧
        [.sent command] ++ (⟨command, lock s.issued, false⟩ : Sent).toCome =
          exchange command (lock s.issued)) := by
  unfold State.send at h
  split at h
  · rename_i hlock
    cases h
    exact .inl ⟨rfl, hlock, rfl⟩
  · rename_i hsent
    cases h
    refine .inr ⟨rfl, rfl, ?_⟩
    cases hlock : lock s.issued with
    | unsent => exact absurd hlock hsent
    | answered | silent => rfl

theorem answer_cases {s s' : State} (h : answer s = some s') :
    ∃ sent status, s.sent = some sent ∧ sent.delivered = false ∧ s.asyncMtx = none ∧
      (∀ status', sent.behaviour = .answered status' → status' = status) ∧
      s' = { s with
        syncr := handleClusterCommand sent.command.commandId status s.syncr
        sent := some ⟨sent.command, sent.behaviour, true⟩
        traffic := s.traffic ++ sent.toCome } := by
  revert h
  fun_cases answer s <;> rintro ⟨⟩
  case case1 status hmtx hsent =>
    refine ⟨_, status, hsent, rfl, hmtx, ?_, rfl⟩
    intro status' heq
    exact (Behaviour.answered.inj heq).symm
  case case2 command status hmtx hsent =>
    refine ⟨_, status, hsent, rfl, hmtx, ?_, ?_⟩
    · intro status' heq
      cases heq
    · rw [show (⟨command, .silent (some status), false⟩ : Sent).toCome = [] from rfl,
        append_nil]

/-! ## Waiting for an answer -/

/-- A thread waits for the answer of this kind to a command, and the synchronizer says no more
than the answer. -/
structure State.Awaits (s : State) (sent : Sent) (responseType : DoorLockResponseType) : Prop where
  last : s.sent = some sent
  kind : ∀ status syncr, handleClusterCommand sent.command.commandId status syncr =
    ⟨responseType, status == 0⟩
  early : sent.delivered = false → s.syncr.success = false
  answered : ∀ status, sent.behaviour = .answered status → sent.delivered = true →
    s.syncr = ⟨responseType, status == 0⟩

/-- The thread that was waiting finds out whether the command was answered with success. -/
theorem State.Awaits.acknowledged_eq {s : State} (h : s.Awaits sent responseType)
    (hends : sent.ends timedOut = true) :
    s.syncr.acknowledged timedOut responseType = decide (sent.behaviour = .answered 0) ∧
      sent.toCome = [] := by
  obtain ⟨command, behaviour, delivered⟩ := sent
  cases behaviour with
  | unsent => cases hends
  | answered status =>
    have hended : (delivered && !timedOut) = true := hends
    rw [Bool.and_eq_true, Bool.not_eq_true'] at hended
    obtain ⟨rfl, rfl⟩ := hended
    refine ⟨?_, rfl⟩
    rw [h.answered status rfl rfl]
    simp [DoorLockRequestSynchronizer.acknowledged, beq_eq_decide]
  | silent late =>
    refine ⟨?_, rfl⟩
    cases timedOut with
    | true => simp [DoorLockRequestSynchronizer.acknowledged]
    | false =>
      have hearly : delivered = false := by simpa [Sent.ends] using hends
      rw [DoorLockRequestSynchronizer.acknowledged, h.early hearly]
      simp

/-- While a thread waits, the answer may come. -/
theorem State.Awaits.answer {s s' : State} (h : s.Awaits sent responseType)
    (hanswer : DoorLock.answer s = some s') :
    ∃ sent', s'.Awaits sent' responseType ∧ sent'.command = sent.command ∧
      sent'.behaviour = sent.behaviour ∧ s'.traffic ++ sent'.toCome = s.traffic ++ sent.toCome := by
  obtain ⟨sent₁, status, hsent, -, -, hstatus, rfl⟩ := answer_cases hanswer
  cases h.last.symm.trans hsent
  refine ⟨⟨sent.command, sent.behaviour, true⟩, ⟨rfl, h.kind, ?_, ?_⟩, rfl, rfl, ?_⟩
  · intro hundelivered
    cases hundelivered
  · intro status' hbehaviour _
    rw [hstatus status' hbehaviour]
    exact h.kind status s.syncr
  · simp only [toCome_delivered, append_nil]

theorem State.Settled.answer {s s' : State} (h : s.Settled)
    (hanswer : DoorLock.answer s = some s') :
    ∃ syncr sent, s' = { s with syncr := syncr, sent := sent } ∧ s'.Settled := by
  obtain ⟨sent, status, hsent, -, -, -, rfl⟩ := answer_cases hanswer
  rw [h sent hsent, append_nil]
  refine ⟨_, _, rfl, ?_⟩
  intro sent' hsent'
  rw [← some.inj hsent']
  exact toCome_delivered _ _

/-! ## Where the threads are -/

/-- Where the task is, once the codes were cleared. -/
inductive State.Working (lock : Nat → Behaviour) (users : List DoorLockClusterUser) (s : State) :
    Prop where
  | scheduled (hworker : s.worker = .scheduled) (husers : s.args.users = users)
      (hcomplete : s.args.complete = false)
      (htraffic : s.traffic ++ exchanges lock s.issued users = conversation lock users)
      (hissued : s.issued = 1) (hsettled : s.Settled)
  | programming (rest : List DoorLockClusterUser) (hworker : s.worker = .programming rest)
      (hcomplete : s.args.complete = false)
      (htraffic : s.traffic ++ exchanges lock s.issued rest = conversation lock users)
      (hverdict : (s.args.result && allSet lock s.issued rest) = allSet lock 1 users)
      (hsettled : s.Settled)
  | sending (user : DoorLockClusterUser) (rest : List DoorLockClusterUser)
      (hworker : s.worker = .sending user rest)
      (hmtx : s.asyncMtx = some .worker) (hsuccess : s.syncr.success = false)
      (hcomplete : s.args.complete = false)
      (htraffic : s.traffic ++ exchanges lock s.issued (user :: rest) = conversation lock users)
      (hverdict : (s.args.result && allSet lock s.issued (user :: rest)) = allSet lock 1 users)
      (hsettled : s.Settled)
  | awaiting (user : DoorLockClusterUser) (rest : List DoorLockClusterUser) (sent : Sent)
      (hworker : s.worker = .awaiting user rest) (hawaits : s.Awaits sent .setPin)
      (hcomplete : s.args.complete = false)
      (htraffic : s.traffic ++ sent.toCome ++ exchanges lock s.issued rest =
        conversation lock users)
      (hverdict : (s.args.result && (decide (sent.behaviour = .answered 0) &&
        allSet lock s.issued rest)) = allSet lock 1 users)
  | done (hworker : s.worker = .done) (hcomplete : s.args.complete = true)
      (htraffic : s.traffic = conversation lock users)
      (hverdict : s.args.result = allSet lock 1 users) (hsettled : s.Settled)

/-- Where the two threads are, and what the lock has seen by then. -/
inductive State.Sound (lock : Nat → Behaviour) (users : List DoorLockClusterUser) (s : State) :
    Prop where
  | start (hcaller : s.caller = .start) (hworker : s.worker = .unscheduled)
      (husers : s.users = users) (hissued : s.issued = 0) (hsent : s.sent = none)
      (htraffic : s.traffic = [])
  | clearing (hcaller : s.caller = .clearing) (hworker : s.worker = .unscheduled)
      (husers : s.users = users) (hissued : s.issued = 0) (htraffic : s.traffic = [])
      (hmtx : s.asyncMtx = some .caller) (hsuccess : s.syncr.success = false)
  | awaitingClear (sent : Sent) (hcaller : s.caller = .awaitingClear)
      (hworker : s.worker = .unscheduled) (husers : s.users = users) (hissued : s.issued = 1)
      (hresult : s.result = true) (hawaits : s.Awaits sent .clearAllPins)
      (hbehaviour : sent.behaviour = lock 0)
      (htraffic : s.traffic ++ sent.toCome = exchange doorLockClusterClearAllPinCodes (lock 0))
  | cleared (hcaller : s.caller = .cleared) (hworker : s.worker = .unscheduled)
      (husers : s.users = users) (hissued : s.issued = 1) (hresult : s.result = true)
      (hclear : lock 0 = .answered 0)
      (htraffic : s.traffic = exchange doorLockClusterClearAllPinCodes (lock 0))
      (hsettled : s.Settled)
  | working (hcaller : s.caller = .checking ∨ s.caller = .awaitingWorker)
      (hresult : s.result = true) (hclear : lock 0 = .answered 0) (hworking : s.Working lock users)
  | failed (hcaller : s.caller = .returned) (hworker : s.worker = .unscheduled)
      (hresult : s.result = false) (hclear : lock 0 ≠ .answered 0)
  | finished (hcaller : s.caller = .returned) (hworker : s.worker = .done)
      (hresult : s.result = true) (hclear : lock 0 = .answered 0)
      (htraffic : s.traffic = conversation lock users)
      (hverdict : s.args.result = allSet lock 1 users) (hsettled : s.Settled)

theorem State.Working.of_caller {lock : Nat → Behaviour} {users : List DoorLockClusterUser}
    {s : State} (h : s.Working lock users) (caller : Caller) (mtx : Option Party) :
    State.Working lock users { s with mtx := mtx, caller := caller } := by
  cases h with
  | scheduled hworker husers hcomplete htraffic hissued hsettled =>
    exact .scheduled hworker husers hcomplete htraffic hissued hsettled
  | programming rest hworker hcomplete htraffic hverdict hsettled =>
    exact .programming rest hworker hcomplete htraffic hverdict hsettled
  | sending user rest hworker hmtx hsuccess hcomplete htraffic hverdict hsettled =>
    exact .sending user rest hworker hmtx hsuccess hcomplete htraffic hverdict hsettled
  | awaiting user rest sent hworker hawaits hcomplete htraffic hverdict =>
    exact .awaiting user rest sent hworker ⟨hawaits.1, hawaits.2, hawaits.3, hawaits.4⟩ hcomplete
      htraffic hverdict
  | done hworker hcomplete htraffic hverdict hsettled =>
    exact .done hworker hcomplete htraffic hverdict hsettled

/-! ## Steps -/

variable {lock : Nat → Behaviour} {users : List DoorLockClusterUser} {s s' : State}

theorem State.Sound.callerStep (h : s.Sound lock users)
    (hstep : DoorLock.callerStep lock s = some s') : s'.Sound lock users := by
  cases h with
  | start hcaller hworker husers hissued hsent htraffic =>
    simp only [DoorLock.callerStep, hcaller] at hstep
    obtain ⟨-, ⟨⟩⟩ := ite_none_right_eq_some.mp hstep
    exact .clearing rfl hworker husers hissued htraffic rfl rfl
  | clearing hcaller hworker husers hissued htraffic hmtx hsuccess =>
    simp only [DoorLock.callerStep, hcaller] at hstep
    cases hsend : s.send lock doorLockClusterClearAllPinCodes with
    | mk s₁ ok =>
      rw [hsend] at hstep
      obtain ⟨rfl, hlock, rfl⟩ | ⟨rfl, rfl, hexchange⟩ := send_cases hsend
      · -- the command could not be sent, and the call gives up
        cases hstep
        rw [hissued] at hlock
        refine .failed rfl hworker rfl ?_
        rw [hlock]
        exact Behaviour.noConfusion
      · cases hstep
        rw [hissued] at hexchange
        refine .awaitingClear ⟨doorLockClusterClearAllPinCodes, lock 0, false⟩ rfl hworker husers
          ?_ rfl ⟨?_, fun _ _ => rfl, fun _ => hsuccess, ?_⟩ rfl ?_
        · exact congrArg (· + 1) hissued
        · rw [hissued]
        · intro _ _ hdelivered
          cases hdelivered
        · rw [htraffic, nil_append]
          exact hexchange
  | awaitingClear _ hcaller | failed hcaller | finished hcaller =>
    simp only [DoorLock.callerStep, hcaller] at hstep
    cases hstep
  | cleared hcaller hworker husers hissued hresult hclear htraffic hsettled =>
    simp only [DoorLock.callerStep, hcaller] at hstep
    obtain ⟨-, ⟨⟩⟩ := ite_none_right_eq_some.mp hstep
    refine .working (.inl rfl) hresult hclear (.scheduled rfl husers rfl ?_ hissued hsettled)
    rw [hissued, htraffic]
    rfl
  | working hcaller hresult hclear hworking =>
    -- the caller looks whether the task is complete, and waits again if it is not
    obtain hcaller | hcaller := hcaller
    · simp only [DoorLock.callerStep, hcaller] at hstep
      split at hstep
      · rename_i hcomplete
        cases hstep
        cases hworking with
        | done hworker _ htraffic hverdict hsettled =>
          exact .finished rfl hworker hresult hclear htraffic hverdict hsettled
        | scheduled _ _ h | programming _ _ h | sending _ _ _ _ _ h | awaiting _ _ _ _ _ h =>
          exact absurd (h.symm.trans hcomplete) Bool.false_ne_true
      · cases hstep
        exact .working (.inr rfl) hresult hclear (hworking.of_caller _ _)
    · simp only [DoorLock.callerStep, hcaller] at hstep
      obtain ⟨-, ⟨⟩⟩ := ite_none_right_eq_some.mp hstep
      exact .working (.inl rfl) hresult hclear (hworking.of_caller _ _)

theorem State.Working.workerStep (h : s.Working lock users)
    (hstep : DoorLock.workerStep lock s = some s') :
    s'.Working lock users ∧ s'.caller = s.caller ∧ s'.result = s.result := by
  cases h with
  | scheduled hworker husers hcomplete htraffic hissued hsettled =>
    simp only [DoorLock.workerStep, hworker] at hstep
    obtain ⟨-, ⟨⟩⟩ := ite_none_right_eq_some.mp hstep
    refine ⟨.programming users ?_ hcomplete htraffic ?_ hsettled, rfl, rfl⟩
    · rw [husers]
    · rw [Bool.true_and, hissued]
  | programming rest hworker hcomplete htraffic hverdict hsettled =>
    cases rest with
    | nil =>
      simp only [DoorLock.workerStep, hworker] at hstep
      cases hstep
      refine ⟨.done rfl rfl ?_ ?_ hsettled, rfl, rfl⟩
      · rw [← htraffic]
        exact (append_nil _).symm
      · rw [← hverdict]
        exact (Bool.and_true _).symm
    | cons user rest =>
      simp only [DoorLock.workerStep, hworker] at hstep
      obtain ⟨-, ⟨⟩⟩ := ite_none_right_eq_some.mp hstep
      exact ⟨.sending user rest rfl rfl rfl hcomplete htraffic hverdict hsettled, rfl, rfl⟩
  | sending user rest hworker hmtx hsuccess hcomplete htraffic hverdict hsettled =>
    -- the traffic that is still expected begins with the command that is sent here
    simp only [DoorLock.workerStep, hworker, doorLockClusterSetPinCode_eq, map_some] at hstep
    rw [exchanges] at htraffic
    rw [allSet] at hverdict
    cases hsend : s.send lock (setPin user) with
    | mk s₁ ok =>
      rw [hsend] at hstep
      obtain ⟨rfl, hlock, rfl⟩ | ⟨rfl, rfl, hexchange⟩ := send_cases hsend
      · -- the command could not be sent, and the lock has seen nothing of it
        cases hstep
        rw [hlock] at htraffic hverdict
        refine ⟨.programming rest rfl hcomplete htraffic ?_ hsettled, rfl, rfl⟩
        rw [← hverdict]
        simp
      · cases hstep
        refine ⟨.awaiting user rest ⟨setPin user, lock s.issued, false⟩ rfl
          ⟨rfl, fun _ _ => rfl, fun _ => hsuccess, ?_⟩ hcomplete ?_ hverdict, rfl, rfl⟩
        · intro _ _ hdelivered
          cases hdelivered
        · rw [← hexchange] at htraffic
          rw [← htraffic]
          simp only [append_assoc]
  | awaiting _ _ _ hworker | done hworker =>
    simp only [DoorLock.workerStep, hworker] at hstep
    cases hstep

theorem State.Sound.workerStep (h : s.Sound lock users)
    (hstep : DoorLock.workerStep lock s = some s') : s'.Sound lock users := by
  have hidle : s.worker ≠ .unscheduled ∧ s.worker ≠ .done := by
    constructor <;>
    · intro hworker
      simp [DoorLock.workerStep, hworker] at hstep
  cases h with
  | working hcaller hresult hclear hworking =>
    obtain ⟨hworking', hcaller', hresult'⟩ := hworking.workerStep hstep
    rw [← hcaller'] at hcaller
    exact .working hcaller (hresult'.trans hresult) hclear hworking'
  | start _ hworker | clearing _ hworker | awaitingClear _ _ hworker | cleared _ hworker
  | failed _ hworker => exact absurd hworker hidle.1
  | finished _ hworker => exact absurd hworker hidle.2

theorem State.Working.answer (h : s.Working lock users) (hanswer : DoorLock.answer s = some s') :
    s'.Working lock users := by
  cases h with
  | scheduled hworker husers hcomplete htraffic hissued hsettled =>
    obtain ⟨_, _, rfl, hsettled'⟩ := hsettled.answer hanswer
    exact .scheduled hworker husers hcomplete htraffic hissued hsettled'
  | programming rest hworker hcomplete htraffic hverdict hsettled =>
    obtain ⟨_, _, rfl, hsettled'⟩ := hsettled.answer hanswer
    exact .programming rest hworker hcomplete htraffic hverdict hsettled'
  | sending user rest hworker hmtx =>
    obtain ⟨-, -, -, -, hfree, -⟩ := answer_cases hanswer
    cases hmtx.symm.trans hfree
  | awaiting user rest sent hworker hawaits hcomplete htraffic hverdict =>
    obtain ⟨sent', hawaits', -, hbehaviour, htraffic'⟩ := hawaits.answer hanswer
    obtain ⟨_, _, -, -, -, -, rfl⟩ := answer_cases hanswer
    refine .awaiting user rest sent' hworker hawaits' hcomplete ?_ ?_
    · rw [htraffic']
      exact htraffic
    · rw [hbehaviour]
      exact hverdict
  | done hworker hcomplete htraffic hverdict hsettled =>
    obtain ⟨_, _, rfl, hsettled'⟩ := hsettled.answer hanswer
    exact .done hworker hcomplete htraffic hverdict hsettled'

theorem State.Sound.answer (h : s.Sound lock users) (hanswer : DoorLock.answer s = some s') :
    s'.Sound lock users := by
  obtain ⟨sent₁, status, hlast, -, hfree, -, hs'⟩ := answer_cases hanswer
  cases h with
  | start hcaller hworker husers hissued hsent => cases hsent.symm.trans hlast
  | clearing hcaller hworker husers hissued htraffic hmtx => cases hmtx.symm.trans hfree
  | awaitingClear sent hcaller hworker husers hissued hresult hawaits hbehaviour htraffic =>
    obtain ⟨sent', hawaits', -, hbehaviour', htraffic'⟩ := hawaits.answer hanswer
    subst hs'
    exact .awaitingClear sent' hcaller hworker husers hissued hresult hawaits'
      (hbehaviour'.trans hbehaviour) (htraffic'.trans htraffic)
  | cleared hcaller hworker husers hissued hresult hclear htraffic hsettled =>
    obtain ⟨_, _, rfl, hsettled'⟩ := hsettled.answer hanswer
    exact .cleared hcaller hworker husers hissued hresult hclear htraffic hsettled'
  | working hcaller hresult hclear hworking =>
    have hworking' := hworking.answer hanswer
    subst hs'
    exact .working hcaller hresult hclear hworking'
  | failed hcaller hworker hresult hclear =>
    subst hs'
    exact .failed hcaller hworker hresult hclear
  | finished hcaller hworker hresult hclear htraffic hverdict hsettled =>
    obtain ⟨_, _, rfl, hsettled'⟩ := hsettled.answer hanswer
    exact .finished hcaller hworker hresult hclear htraffic hverdict hsettled'

theorem wake_cases (h : wake timedOut s = some s') :
    ∃ sent, s.sent = some sent ∧ sent.ends timedOut = true ∧
      ((s.caller = .awaitingClear ∧
          s' = if s.syncr.acknowledged timedOut .clearAllPins then { s with caller := .cleared }
            else { s with result := false, caller := .returned }) ∨
        ∃ user rest, s.caller ≠ .awaitingClear ∧ s.worker = .awaiting user rest ∧
          s' = { s with
            args := { s.args with
              result := s.args.result && s.syncr.acknowledged timedOut .setPin }
            worker := .programming rest }) := by
  revert h
  fun_cases wake timedOut s <;> rintro ⟨⟩
  all_goals
    obtain ⟨sent, hsent, hended⟩ := map_eq_some_iff.mp (‹s.asyncMtx = none ∧ _›).2
    refine ⟨sent, hsent, hended, ?_⟩
  case case1 hcaller hack => exact .inl ⟨hcaller, (if_pos hack).symm⟩
  case case2 hcaller hack => exact .inl ⟨hcaller, (if_neg hack).symm⟩
  case case3 user rest hworker hack hcaller =>
    refine .inr ⟨user, rest, hcaller, hworker, ?_⟩
    rw [hack, Bool.and_true]
  case case4 user rest hworker hack hcaller =>
    refine .inr ⟨user, rest, hcaller, hworker, ?_⟩
    rw [Bool.not_eq_true] at hack
    rw [hack, Bool.and_false]

theorem State.Sound.wake (h : s.Sound lock users) (hwake : DoorLock.wake timedOut s = some s') :
    s'.Sound lock users := by
  obtain ⟨sent₁, hlast, hended, ⟨hcaller₁, rfl⟩ | ⟨user, rest, hcaller₁, hworker₁, rfl⟩⟩ :=
    wake_cases hwake
  · cases h with
    | awaitingClear sent hcaller hworker husers hissued hresult hawaits hbehaviour htraffic =>
      cases hawaits.last.symm.trans hlast
      obtain ⟨hack, hnone⟩ := hawaits.acknowledged_eq hended
      rw [hnone, append_nil] at htraffic
      rw [hack, hbehaviour]
      -- only a status of zero from the lock lets the programming begin
      by_cases hclear : lock 0 = .answered 0
      · rw [if_pos (decide_eq_true hclear)]
        refine .cleared rfl hworker husers hissued hresult hclear htraffic ?_
        intro sent' hsent'
        rw [← some.inj (hlast.symm.trans hsent')]
        exact hnone
      · rw [if_neg (by simpa using hclear)]
        exact .failed rfl hworker rfl hclear
    | working hcaller => simp [hcaller₁] at hcaller
    | start hcaller | clearing hcaller | cleared hcaller | failed hcaller | finished hcaller =>
      cases hcaller.symm.trans hcaller₁
  · cases h with
    | working hcaller hresult hclear hworking =>
      cases hworking with
      | awaiting user' rest' sent hworker hawaits hcomplete htraffic hverdict =>
        obtain ⟨rfl, rfl⟩ := Worker.awaiting.inj (hworker.symm.trans hworker₁)
        cases hawaits.last.symm.trans hlast
        obtain ⟨hack, hnone⟩ := hawaits.acknowledged_eq hended
        rw [hnone, append_nil] at htraffic
        refine .working hcaller hresult hclear (.programming rest' rfl hcomplete htraffic ?_ ?_)
        · rw [← hverdict, hack, Bool.and_assoc]
        · intro sent' hsent'
          rw [← some.inj (hlast.symm.trans hsent')]
          exact hnone
      | scheduled hworker | programming _ hworker | sending _ _ hworker | done hworker =>
        cases hworker.symm.trans hworker₁
    | start _ hworker | clearing _ hworker | awaitingClear _ _ hworker | cleared _ hworker
    | failed _ hworker | finished _ hworker => cases hworker.symm.trans hworker₁

/-- Where the two threads are, and what the lock has seen by then. -/
theorem State.Sound.step {event : Event} {o : Unit} (h : s.Sound lock users)
    (hstep : DoorLock.step lock s event = some (s', o)) : s'.Sound lock users := by
  cases event with
  | caller => exact h.callerStep (map_output_eq_some_iff.mp hstep).1
  | worker => exact h.workerStep (map_output_eq_some_iff.mp hstep).1
  | answer => exact h.answer (map_output_eq_some_iff.mp hstep).1
  | wake timedOut => exact h.wake (map_output_eq_some_iff.mp hstep).1

theorem sound_run {syncr : DoorLockRequestSynchronizer} {list : UserList} {events : List Event}
    {os : List Unit}
    (h : run (step lock) (setPinCodes syncr (some list)) events = some (s, os)) :
    s.Sound lock list.users :=
  run_invariant (fun _ _ _ _ hsound _ hstep => hsound.step hstep) (.start rfl rfl rfl rfl rfl rfl)
    (guarded_true _ _ _) h

/-! ## What is returned -/

/-- The update is reported exactly if the codes were cleared. -/
theorem State.Sound.result_eq (h : s.Sound lock users) (hreturned : s.caller = .returned) :
    s.result = decide (lock 0 = .answered 0) ∧
      (s.result = true → s.traffic = conversation lock users ∧
        s.args.result = allSet lock 1 users) := by
  cases h with
  | failed _ _ hresult hclear =>
    refine ⟨?_, ?_⟩
    · rw [hresult, decide_eq_false hclear]
    · intro htrue
      cases hresult.symm.trans htrue
  | finished _ _ hresult hclear htraffic hverdict =>
    refine ⟨?_, fun _ => ⟨htraffic, hverdict⟩⟩
    rw [hresult, decide_eq_true hclear]
  | working hcaller => simp [hreturned] at hcaller
  | start hcaller | clearing hcaller | awaitingClear _ hcaller | cleared hcaller =>
    cases hcaller.symm.trans hreturned

/-- The codes were cleared, and after that the pin of every user was set. -/
def Programmed (users : List DoorLockClusterUser) (traffic : List Note) : Prop :=
  ∃ before after, traffic = before ++ .answered doorLockClusterClearAllPinCodes 0 :: after ∧
    ∀ user ∈ users, ∃ command, doorLockClusterSetPinCode user = some command ∧
      List.Sublist [.sent command, .answered command 0] after

theorem sublist_exchanges {n : Nat} (huser : user ∈ users) (h : allSet lock n users = true) :
    List.Sublist [.sent (setPin user), .answered (setPin user) 0] (exchanges lock n users) := by
  induction users generalizing n with
  | nil => cases huser
  | cons first users ih =>
    rw [allSet, Bool.and_eq_true, decide_eq_true_eq] at h
    rw [exchanges, h.1]
    obtain rfl | huser := mem_cons.mp huser
    · exact sublist_append_left _ _
    · exact (ih huser h.2).trans (sublist_append_right _ _)

theorem mem_exchange {command' : Command} {behaviour : Behaviour}
    (h : .answered command status ∈ exchange command' behaviour) :
    command = command' ∧ behaviour = .answered status := by
  cases behaviour with
  | unsent => cases h
  | answered status' =>
    simp only [exchange, mem_cons, reduceCtorEq, Note.answered.injEq, not_mem_nil,
      or_false, false_or] at h
    exact ⟨h.1, congrArg Behaviour.answered h.2.symm⟩
  | silent late => simp [exchange] at h

/-- An answer that was seen is one of the answers for the users. -/
theorem mem_exchanges {n : Nat} (h : .answered command status ∈ exchanges lock n users) :
    ∃ i user, users[i]? = some user ∧ command = setPin user ∧ lock (n + i) = .answered status := by
  induction users generalizing n with
  | nil => cases h
  | cons first users ih =>
    rw [exchanges, mem_append] at h
    obtain h | h := h
    · exact ⟨0, first, rfl, mem_exchange h⟩
    · obtain ⟨i, user, huser, hcommand, hlock⟩ := ih h
      refine ⟨i + 1, user, by simpa using huser, hcommand, ?_⟩
      rw [← hlock]
      congr 1
      omega

/-- What the lock has seen is a whole update exactly if it answered every command with success. -/
theorem programmed_conversation_iff (list : UserList) (hclear : lock 0 = .answered 0) :
    Programmed list.users (conversation lock list.users) ↔ allSet lock 1 list.users = true := by
  constructor
  · rintro ⟨before, after, htraffic, hprogrammed⟩
    rw [allSet_eq_true_iff]
    intro i hi
    obtain ⟨command, hcommand, hsublist⟩ :=
      hprogrammed list.users[i] (getElem_mem hi)
    rw [doorLockClusterSetPinCode_eq] at hcommand
    cases hcommand
    have hmem : Note.answered (setPin list.users[i]) 0 ∈ conversation lock list.users := by
      rw [htraffic]
      apply mem_append_right
      apply mem_cons_of_mem
      exact hsublist.subset (by simp)
    -- the answer is not the one to the first command, and no two users have the same id
    obtain hmem | hmem := mem_append.mp hmem
    · have hid := congrArg Command.commandId (mem_exchange hmem).1
      cases hid
    · obtain ⟨j, user, huser, heq, hlock⟩ := mem_exchanges hmem
      have hids : (list.users.map DoorLockClusterUser.userId)[i]? =
          (list.users.map DoorLockClusterUser.userId)[j]? := by
        rw [getElem?_map, getElem?_map, huser, getElem?_eq_getElem hi]
        exact congrArg some (userId_eq_of_setPin_eq heq)
      obtain rfl : i = j := (getElem?_inj (by simpa using hi) list.ids_nodup).mp hids
      exact hlock
  · intro hall
    refine ⟨[.sent doorLockClusterClearAllPinCodes], exchanges lock 1 list.users, ?_, ?_⟩
    · rw [conversation, hclear]
      rfl
    · intro user huser
      exact ⟨setPin user, doorLockClusterSetPinCode_eq user, sublist_exchanges huser hall⟩

/-! ## The call returns -/

/-- The task is done, and the caller only has to look. -/
def State.Completed (s : State) : Prop :=
  s.caller = .awaitingWorker ∧ s.mtx = none ∧ s.args.complete = true

/-- A wait ends once nobody has the mutex and the answer is there, or it has been long enough. -/
theorem wake_enabled (hmtx : s.asyncMtx = none) (hsent : s.sent = some sent)
    (hends : sent.ends timedOut = true) :
    s.asyncMtx = none ∧ (s.sent.map fun sent => sent.ends timedOut) = some true := by
  rw [hsent, map_some, hends]
  exact ⟨hmtx, rfl⟩

theorem leads_programming {P : State → Prop} (timedOut : Bool) (hmtx : s.asyncMtx = none)
    (hsent : s.sent = some sent) (hends : sent.ends timedOut = true)
    (hcaller : s.caller = .awaitingWorker) (hworker : s.worker = .awaiting user users)
    (h : ∀ s', s'.worker = .programming users → s'.asyncMtx = none → s'.caller = .awaitingWorker →
      Leads (step lock) P s') : Leads (step lock) P s := by
  apply Leads.of_step (.wake timedOut)
  simp only [step, wake, if_pos (wake_enabled hmtx hsent hends), hcaller, hworker]
  split
  · exact ⟨_, _, rfl, h _ rfl hmtx rfl⟩
  · exact ⟨_, _, rfl, h _ rfl hmtx rfl⟩

theorem leads_completed (hworker : s.worker = .programming users) (hmtx : s.asyncMtx = none)
    (hcaller : s.caller = .awaitingWorker) : Leads (step lock) State.Completed s := by
  induction users generalizing s with
  | nil =>
    apply Leads.of_step .worker
    refine ⟨_, _, by simp only [step, workerStep, hworker]; rfl, ?_⟩
    exact Leads.here ⟨hcaller, rfl, rfl⟩
  | cons user users ih =>
    apply Leads.of_step .worker
    refine ⟨_, _, by simp only [step, workerStep, hworker, hmtx]; rfl, ?_⟩
    apply Leads.of_step .worker
    simp only [step, workerStep, doorLockClusterSetPinCode_eq, map_some, State.send]
    cases hlock : lock s.issued with
    | unsent => exact ⟨_, _, rfl, ih rfl rfl hcaller⟩
    | answered status =>
      refine ⟨_, _, rfl, ?_⟩
      apply Leads.of_step .answer
      refine ⟨_, _, rfl, ?_⟩
      exact leads_programming false rfl rfl rfl hcaller rfl fun _ => ih
    | silent late =>
      refine ⟨_, _, rfl, ?_⟩
      exact leads_programming true rfl rfl rfl hcaller rfl fun _ => ih

theorem leads_returned (hcaller : s.caller = .cleared) (hmtx : s.mtx = none)
    (hasync : s.asyncMtx = none) : Leads (step lock) (fun s' => s'.caller = .returned) s := by
  apply Leads.of_step .caller
  refine ⟨_, _, by simp only [step, callerStep, hcaller, hmtx]; rfl, ?_⟩
  apply Leads.of_step .caller
  refine ⟨_, _, rfl, ?_⟩
  apply Leads.of_step .worker
  refine ⟨_, _, rfl, ?_⟩
  apply Leads.trans (P := State.Completed)
  · exact leads_completed rfl hasync rfl
  · rintro s' ⟨hcaller', hmtx', hcomplete⟩
    apply Leads.of_step .caller
    refine ⟨_, _, by simp only [step, callerStep, hcaller', hmtx']; rfl, ?_⟩
    apply Leads.of_step .caller
    refine ⟨_, _, by simp only [step, callerStep, hcomplete]; rfl, ?_⟩
    exact Leads.here rfl

theorem leads_returned_of_wake (timedOut : Bool) (hasync : s.asyncMtx = none)
    (hsent : s.sent = some sent) (hends : sent.ends timedOut = true)
    (hcaller : s.caller = .awaitingClear) (hmtx : s.mtx = none) :
    Leads (step lock) (fun s' => s'.caller = .returned) s := by
  apply Leads.of_step (.wake timedOut)
  simp only [step, wake, if_pos (wake_enabled hasync hsent hends), hcaller]
  split
  · exact ⟨_, _, rfl, leads_returned rfl hmtx hasync⟩
  · exact ⟨_, _, rfl, Leads.here rfl⟩

/-- Whatever the lock does, the call can return. -/
theorem setPinCodes_returns (lock : Nat → Behaviour) (syncr : DoorLockRequestSynchronizer)
    (list : UserList) :
    Leads (step lock) (fun s => s.caller = .returned) (setPinCodes syncr (some list)) := by
  apply Leads.of_step .caller
  refine ⟨_, _, rfl, ?_⟩
  apply Leads.of_step .caller
  simp only [step, callerStep, State.send, setPinCodes]
  cases hlock : lock 0 with
  | unsent => exact ⟨_, _, rfl, Leads.here rfl⟩
  | answered status =>
    refine ⟨_, _, rfl, ?_⟩
    apply Leads.of_step .answer
    refine ⟨_, _, rfl, ?_⟩
    exact leads_returned_of_wake false rfl rfl rfl rfl rfl
  | silent late => exact ⟨_, _, rfl, leads_returned_of_wake true rfl rfl rfl rfl rfl⟩

/-! ## Reported updates -/

def firstUser : DoorLockClusterUser := ⟨1, 1, 0, [49, 50, 51, 52], rfl, by decide⟩

def secondUser : DoorLockClusterUser := ⟨2, 1, 0, [53, 54, 55, 56], rfl, by decide⟩

def twoUsers : UserList := ⟨[firstUser, secondUser], by decide, by decide⟩

/-- A lock that clears its codes and refuses every pin. -/
def refusesPins : Nat → Behaviour
  | 0 => .answered 0
  | _ + 1 => .answered 1

end ZilkerSdk.Device.DoorLock
