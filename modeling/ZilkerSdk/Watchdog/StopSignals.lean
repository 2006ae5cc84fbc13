import ZilkerSdk.Watchdog.Model

/-!
# Which process a stop signals

`executeStopOperation` remembers the pid of the service for `waitForDeath`, but sends
its signals to `curr->currentPid`.  The two differ once `handleDeadChild` has restarted
the service during a wait.  Then the result of `waitForDeath` has to be true, so that
no further signal is sent; but this result is only a count: after five polls it is
false, whether or not the process died.
-/

namespace ZilkerSdk.Watchdog

open Lib

variable {op : Operation} {s s' : State} {event : Event} {pid : Pid}

/-! ## The decision to send a signal -/

/-- From `s` the operation goes on to `s'` after it decided with `isDead` whether to send a
signal: it is sent unless the process is known to be dead or the service has none.  A stop that
ends with a signal ends with `SIGKILL`. -/
structure Decides (pid : Pid) (s : State) (isDead : Bool) (s' : State) : Prop where
  frame : s' = { s with pc := s'.pc, sent := s'.sent }
  pc : s'.pc = .stopped ∨ s'.pc = .polling pid .signal 0
  sent : (isDead = false ∧ s.service.currentPid > 0 ∧
      ∃ signal, s'.sent = s.sent ++ [⟨s.service.currentPid, signal⟩] ∧
        (s'.pc = .stopped → signal = .sigkill)) ∨
    (¬ (isDead = false ∧ s.service.currentPid > 0) ∧ s'.sent = s.sent)

variable {isDead : Bool}

theorem Decides.service_eq (h : Decides pid s isDead s') : s'.service = s.service := by
  rw [h.frame]

theorem decides_sendKill (pid : Pid) (s : State) (isDead : Bool) :
    Decides pid s isDead (sendKill s isDead) := by
  unfold sendKill
  split
  · rename_i h
    exact ⟨rfl, .inl rfl, .inl ⟨h.1, h.2, .sigkill, rfl, fun _ => rfl⟩⟩
  · rename_i h
    exact ⟨rfl, .inl rfl, .inr ⟨h, rfl⟩⟩

section

variable (op : Operation) (pid : Pid) (s : State) (isDead : Bool)

theorem decides_sendSignal : Decides pid s isDead (sendSignal op pid s isDead) := by
  unfold sendSignal
  split
  · rename_i h
    exact ⟨rfl, .inr rfl, .inl ⟨h.1, h.2, op.signal, rfl, fun hpc => by cases hpc⟩⟩
  · exact decides_sendKill pid s isDead

theorem decides_afterIpc : Decides pid s isDead (afterIpc op pid s isDead) := by
  obtain ⟨hframe, hpc, hsent⟩ :=
    decides_sendSignal op pid s (isDead || decide (s.service.currentPid ≤ 0))
  refine ⟨hframe, hpc, ?_⟩
  -- that the service has no process stops the signal anyhow
  have hiff : ((isDead || decide (s.service.currentPid ≤ 0)) = false ∧ s.service.currentPid > 0) ↔
      (isDead = false ∧ s.service.currentPid > 0) := by
    rw [Bool.or_eq_false_iff, decide_eq_false_iff_not, Int.not_le, and_assoc, and_self]
  obtain ⟨hdead, hpos, hsignal⟩ | ⟨hnot, hsame⟩ := hsent
  · exact .inl ⟨(hiff.mp ⟨hdead, hpos⟩).1, hpos, hsignal⟩
  · exact .inr ⟨fun h => hnot (hiff.mpr h), hsame⟩

theorem decides_afterWait (after : WaitAfter) :
    Decides pid s isDead (afterWait op pid s isDead after) := by
  cases after with
  | ipc => exact decides_afterIpc op pid s isDead
  | signal => exact decides_sendKill pid s isDead

end

/-! ## One step -/

/-- The operation remembers `pid`, and until its first wait the service has this process. -/
def Remembers (pid : Pid) (s : State) : Prop :=
  match s.pc with
  | .begin => s.service.currentPid = pid
  | .ipc pid' => pid' = pid ∧ s.service.currentPid = pid
  | .polling pid' _ _ => pid' = pid
  | .waiting pid' _ _ => pid' = pid
  | .stopped => True
  | .returned => True

/-- The step does not end a wait of five polls or more in which the service got another process. -/
def NoLateRestart (s : State) (event : Event) : Prop :=
  match s.pc, event with
  | .polling pid _ checkCount, .poll others =>
    waitEnds s pid checkCount others = true → checkCount ≥ 5 →
      s.service.currentPid = pid ∨ s.service.currentPid ≤ 0
  | _, _ => True

theorem Decides.remembers (h : Decides pid s isDead s') : Remembers pid s' := by
  unfold Remembers
  obtain hpc | hpc := h.pc
  · rw [hpc]
    trivial
  · rw [hpc]

/-- What a step sends: nothing, or a signal to the remembered process; but a signal to another
process if it comes late after a restart. -/
def Sends (pid : Pid) (s : State) (event : Event) (s' : State) : Prop :=
  (NoLateRestart s event ∧ (s'.sent = s.sent ∨ ∃ signal, s'.sent = s.sent ++ [⟨pid, signal⟩])) ∨
  (¬ NoLateRestart s event ∧
    ∃ pid' signal, pid' ≠ pid ∧ s'.sent = s.sent ++ [⟨pid', signal⟩])

theorem noLateRestart_of_ne_poll (h : ∀ others, event ≠ .poll others) : NoLateRestart s event := by
  unfold NoLateRestart
  split
  · exact absurd rfl (h _)
  · trivial

theorem sends_of_same (hquiet : NoLateRestart s event) (h : s'.sent = s.sent) :
    Sends pid s event s' :=
  .inl ⟨hquiet, .inl h⟩

theorem Decides.sends {s₁ : State} (h : Decides pid s₁ isDead s') (hquiet : NoLateRestart s event)
    (hpid : s₁.service.currentPid = pid) (hsent : s₁.sent = s.sent) : Sends pid s event s' := by
  refine .inl ⟨hquiet, ?_⟩
  obtain ⟨-, -, signal, happend, -⟩ | ⟨-, hsame⟩ := h.sent
  · rw [hpid, hsent] at happend
    exact .inr ⟨signal, happend⟩
  · exact .inl (hsame.trans hsent)

theorem begin_sends (hpid : s.service.currentPid = pid) :
    Remembers pid (beginStop op s) ∧ Sends pid s .begin (beginStop op s) := by
  have hquiet : NoLateRestart s .begin := noLateRestart_of_ne_poll (by simp)
  obtain ⟨-, hbegin⟩ | ⟨-, hbegin | hbegin⟩ := beginStop_cases op s
  · rw [hbegin]
    exact ⟨trivial, sends_of_same hquiet rfl⟩
  · rw [hbegin]
    exact ⟨⟨hpid, hpid⟩, sends_of_same hquiet rfl⟩
  · rw [hbegin, hpid]
    have hdecides := decides_sendSignal op pid { s with service := markForStop op s.service } false
    exact ⟨hdecides.remembers, hdecides.sends hquiet hpid rfl⟩

theorem poll_sends {after : WaitAfter} {n : Nat} {others : Bool} (hpc : s.pc = .polling pid after n)
    (hends : waitEnds s pid n others = true)
    (h : Decides pid s (waitForDeathResult n) s') : Sends pid s (.poll others) s' := by
  have hquiet : NoLateRestart s (.poll others) ↔
      (n ≥ 5 → s.service.currentPid = pid ∨ s.service.currentPid ≤ 0) := by
    unfold NoLateRestart
    rw [hpc]
    exact ⟨fun h => h hends, fun h _ => h⟩
  obtain ⟨hresult, hpos, signal, happend, -⟩ | ⟨hnot, hsame⟩ := h.sent
  · -- the wait was long, so a signal is sent to whatever process the service has
    by_cases hpid : s.service.currentPid = pid
    · exact .inl ⟨hquiet.mpr fun _ => .inl hpid, .inr ⟨signal, by rw [happend, hpid]⟩⟩
    · refine .inr ⟨fun hin => ?_, s.service.currentPid, signal, hpid, happend⟩
      have hlong : n ≥ 5 := by simpa [waitForDeathResult] using hresult
      obtain hsame | hnone := hquiet.mp hin hlong
      · exact hpid hsame
      · exact absurd hpos (Int.not_lt.mpr hnone)
  · refine sends_of_same (hquiet.mpr fun hlong => .inr ?_) hsame
    have hresult : waitForDeathResult n = false := by simpa [waitForDeathResult] using hlong
    exact Int.not_lt.mp fun hpos => hnot ⟨hresult, hpos⟩

theorem operationStep_sent (hpid : Remembers pid s) (h : operationStep op s event = some s') :
    Remembers pid s' ∧ Sends pid s event s' := by
  unfold Remembers at hpid
  obtain ⟨hpc, rfl, rfl⟩ | ⟨p, success, hpc, rfl, rfl⟩ | ⟨p, after, n, others, hpc, rfl, hpoll⟩ |
    ⟨p, after, n, hpc, rfl, rfl⟩ | ⟨forkPid, now, hpc, rfl, hfinish⟩ := operationStep_cases h
  all_goals rw [hpc] at hpid
  · exact begin_sends hpid
  · obtain ⟨rfl, hcurr⟩ := hpid
    have hquiet : NoLateRestart s (.ipc success) := noLateRestart_of_ne_poll (by simp)
    split
    · exact ⟨rfl, sends_of_same hquiet rfl⟩
    · have hdecides := decides_afterIpc op p s false
      exact ⟨hdecides.remembers, hdecides.sends hquiet hcurr rfl⟩
  · obtain rfl := hpid
    -- only the poll that ends the wait can come late
    obtain ⟨hends, rfl⟩ | ⟨hgoes, rfl⟩ := hpoll
    · have hdecides := decides_afterWait op p s (waitForDeathResult n) after
      exact ⟨hdecides.remembers, poll_sends hpc hends hdecides⟩
    · refine ⟨rfl, sends_of_same ?_ rfl⟩
      unfold NoLateRestart
      rw [hpc]
      intro hends
      rw [hgoes] at hends
      cases hends
  · exact ⟨hpid, sends_of_same (noLateRestart_of_ne_poll (by simp)) rfl⟩
  · have hquiet : NoLateRestart s (.finish forkPid now) := noLateRestart_of_ne_poll (by simp)
    obtain ⟨-, hlaunch⟩ | ⟨-, rfl⟩ := hfinish
    · obtain ⟨-, -, -, -, rfl⟩ | ⟨-, rfl⟩ := launch_cases hlaunch
      · exact ⟨trivial, sends_of_same hquiet rfl⟩
      · exact ⟨trivial, sends_of_same hquiet rfl⟩
    · exact ⟨trivial, sends_of_same hquiet rfl⟩

/-- One step sends nothing or a signal to the remembered process, unless it comes late. -/
theorem step_sent {o : Unit} (hpid : Remembers pid s) (h : step op s event = some (s', o)) :
    Remembers pid s' ∧ Sends pid s event s' := by
  obtain ⟨p, rfl, -, rfl⟩ | ⟨p, rfl, -, -, rfl⟩ | ⟨context, child, rfl, hfree, -, hlaunch⟩ | hop :=
    step_cases h
  · exact ⟨hpid, sends_of_same (noLateRestart_of_ne_poll (by simp)) rfl⟩
  · exact ⟨hpid, sends_of_same (noLateRestart_of_ne_poll (by simp)) rfl⟩
  · -- `handleDeadChild` may replace the process, but it leaves the operation alone
    have hkeeps : s'.pc = s.pc ∧ s'.sent = s.sent := by
      obtain ⟨-, -, -, -, rfl⟩ | ⟨-, rfl⟩ := launch_cases hlaunch
      · exact ⟨rfl, rfl⟩
      · exact ⟨rfl, rfl⟩
    refine ⟨?_, sends_of_same (noLateRestart_of_ne_poll (by simp)) hkeeps.2⟩
    unfold Remembers at hpid ⊢
    rw [hkeeps.1]
    obtain ⟨p, after, n, hpc⟩ | hpc := Pc.unlocked_cases hfree
    · rw [hpc] at hpid ⊢
      exact hpid
    · rw [hpc]
      trivial
  · exact operationStep_sent hpid hop

/-! ## Whole runs -/

/-- The operation has just got the lock, of a service whose processes may be in any state. -/
def begun (service : ServiceDefinition) (alive ended : List Pid) (reaped : Option Pid) : State :=
  ⟨service, .begin, alive, ended, reaped, [], []⟩

/-- Every signal that was sent went to the process. -/
def SignalsOnly (pid : Pid) (s : State) : Prop := ∀ signal ∈ s.sent, signal.pid = pid

/-- The log stays clean exactly through the steps that do not come late. -/
theorem Sends.signalsOnly_iff (h : Sends pid s event s') :
    SignalsOnly pid s' ↔ SignalsOnly pid s ∧ NoLateRestart s event := by
  unfold SignalsOnly
  obtain ⟨hquiet, hsame | ⟨signal, happend⟩⟩ | ⟨hlate, pid', signal, hne, happend⟩ := h
  · rw [hsame, and_iff_left hquiet]
  · rw [happend, List.forall_mem_append, List.forall_mem_singleton]
    exact and_congr_right fun _ => iff_of_true rfl hquiet
  · rw [happend, List.forall_mem_append, List.forall_mem_singleton]
    exact and_congr_right fun _ => iff_of_false hne hlate

/-- Every signal of `executeStopOperation` goes to the process the service had when the operation
began exactly if no wait of five polls or more ends after the service was restarted. -/
theorem signals_own_process_iff (op : Operation) (service : ServiceDefinition)
    (alive ended : List Pid) (reaped : Option Pid) {events : List Event} {s' : State}
    {os : List Unit}
    (hrun : run (step op) (begun service alive ended reaped) events = some (s', os)) :
    SignalsOnly service.currentPid s' ↔
      Guarded (step op) NoLateRestart (begun service alive ended reaped) events := by
  have hbegin : Remembers service.currentPid (begun service alive ended reaped) := rfl
  refine (run_iff_guarded ?_ hbegin hrun).2.trans (and_iff_right nofun)
  intro s event s' o hpid h
  obtain ⟨hpid', hsends⟩ := step_sent hpid h
  exact ⟨hpid', hsends.signalsOnly_iff⟩

/-- A service that is restarted whenever it dies. -/
def sampleService : ServiceDefinition where
  execPath := "/bin/service"
  restartOnFail := true
  secondsBetweenRestarts := 0
  maxRestartsPerMinute := 0
  restartsWithinPastMinute := 0
  actionOnMaxRestarts := .stopRestarting
  lastRestartTimeMono := 0
  lastActReceivedTime := 0
  shutdownToken := none
  currentPid := 100
  tempIgoreDeath := false
  deathCount := 0

/-- The process 100 ends, is collected, and is replaced by the process 101. -/
def replaced : List Event := [.exit 100, .reap 100, .handle ⟨50, true, 101, 50⟩]

/-- The process dies in the first second and is replaced before the wait ends. -/
theorem signals_own_process_iff_earlyDeath :
    ∃ s' os, run (step restartForRecoveryProcessAction) (begun sampleService [100] [] none)
        ([.begin, .poll false] ++ replaced ++ [.wake, .poll false]) = some (s', os) ∧
      (SignalsOnly 100 s' ↔
        Guarded (step restartForRecoveryProcessAction) NoLateRestart
          (begun sampleService [100] [] none)
          ([.begin, .poll false] ++ replaced ++ [.wake, .poll false])) := by
  have hsome : (run (step restartForRecoveryProcessAction) (begun sampleService [100] [] none)
      ([.begin, .poll false] ++ replaced ++ [.wake, .poll false])).isSome = true := by
    decide +kernel
  obtain ⟨⟨s', os⟩, hrun⟩ := Option.isSome_iff_exists.mp hsome
  exact ⟨s', os, hrun, signals_own_process_iff _ _ _ _ _ hrun⟩

/-- The process dies in the fifth second, and its successor is killed. -/
theorem late_death_kills_successor :
    ∃ s' os, run (step restartForRecoveryProcessAction) (begun sampleService [100] [] none)
        ([.begin, .poll false, .wake, .poll false, .wake, .poll false, .wake, .poll false, .wake,
          .poll false] ++ replaced ++ [.wake, .poll false]) = some (s', os) ∧
      s'.sent = [⟨100, .sigquit⟩, ⟨101, .sigkill⟩] ∧ s'.service.currentPid = 101 ∧
      101 ∈ s'.alive := by
  refine ⟨_, _, rfl, ?_⟩
  decide +kernel

end ZilkerSdk.Watchdog
