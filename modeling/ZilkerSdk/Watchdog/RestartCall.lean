import ZilkerSdk.Watchdog.StopSignals

/-!
# Restarting a service on request

`operationOnSingleProcesses` with `RESTART_PROCESS_ACTION` stops the service with its
death ignored, sleeps a second with the lock held and starts the service unless it has
a process already.  It has one in the eyes of the start half as long as
`handleDeadChild` has not cleared `currentPid`, which it can only do in one of the
waits of the stop half.  If the stop half does not wait, or the death is handled after
its last wait, then nobody starts the service: the start half takes it for running,
and the death is ignored.
-/

namespace ZilkerSdk.Watchdog

open Lib

variable {op : Operation} {s s' : State} {event : Event} {pid : Pid}

/-! ## The environment -/

/-- The restart of a running service has just got the lock. -/
def running (service : ServiceDefinition) : State := begun service [service.currentPid] [] none

/-- Every fork succeeds, and a process that was started does not die. -/
def Undisturbed (s : State) : Event → Prop
  | .exit pid => pid ∉ s.launched
  | .handle context => context.forkPid > 0
  | .finish forkPid _ => forkPid > 0
  | _ => True

instance (s : State) (event : Event) : Decidable (Undisturbed s event) := by
  delta Undisturbed
  split <;> infer_instance

def restartStep (s : State) (event : Event) : Option (State × Unit) :=
  if Undisturbed s event then step restartProcessAction s event else none

/-- The call has returned, every process that ended was collected and its death handled, and what
was sent `SIGKILL` has ended. -/
structure Settled (s : State) : Prop where
  returned : s.pc = .returned
  collected : s.ended = []
  handled : s.reaped = none
  killed : ∀ pid, ⟨pid, .sigkill⟩ ∈ s.sent → pid ∉ s.alive

/-- When the start half looks at the service, the death of the old process has been handled. -/
def HandledInTime (s : State) : Event → Prop
  | .finish _ _ => s.service.currentPid ≤ 0
  | _ => True

/-! ## The old process -/

/-- The life of the process the service had: it runs, it has ended, it was collected, its death
was handled. -/
inductive OldProcess (pid : Pid) (s : State) : Prop
  | runs (hpid : s.service.currentPid = pid) (halive : s.alive = [pid]) (hended : s.ended = [])
      (hreaped : s.reaped = none)
  | ended (hpid : s.service.currentPid = pid) (halive : s.alive = []) (hended : s.ended = [pid])
      (hreaped : s.reaped = none)
  | collected (hpid : s.service.currentPid = pid) (halive : s.alive = []) (hended : s.ended = [])
      (hreaped : s.reaped = some pid)
  | handled (hpid : s.service.currentPid = 0) (halive : s.alive = []) (hended : s.ended = [])
      (hreaped : s.reaped = none)

section

variable (h : OldProcess pid s)
include h

theorem OldProcess.congr
    (hpid : s'.service.currentPid = s.service.currentPid) (halive : s'.alive = s.alive)
    (hended : s'.ended = s.ended) (hreaped : s'.reaped = s.reaped) : OldProcess pid s' := by
  cases h with
  | runs h₁ h₂ h₃ h₄ =>
    exact .runs (hpid.trans h₁) (halive.trans h₂) (hended.trans h₃) (hreaped.trans h₄)
  | ended h₁ h₂ h₃ h₄ =>
    exact .ended (hpid.trans h₁) (halive.trans h₂) (hended.trans h₃) (hreaped.trans h₄)
  | collected h₁ h₂ h₃ h₄ =>
    exact .collected (hpid.trans h₁) (halive.trans h₂) (hended.trans h₃) (hreaped.trans h₄)
  | handled h₁ h₂ h₃ h₄ =>
    exact .handled (hpid.trans h₁) (halive.trans h₂) (hended.trans h₃) (hreaped.trans h₄)

theorem OldProcess.exit {p : Pid} (hp : p ∈ s.alive) :
    OldProcess pid { s with alive := s.alive.erase p, ended := p :: s.ended } := by
  cases h with
  | runs hpid halive hended hreaped =>
    rw [halive, List.mem_singleton] at hp
    subst hp
    exact .ended hpid (by simp [halive]) (by simp [hended]) hreaped
  | ended _ halive | collected _ halive | handled _ halive => rw [halive] at hp; cases hp

theorem OldProcess.reap {p : Pid} (hp : p ∈ s.ended) :
    OldProcess pid { s with ended := s.ended.erase p, reaped := some p } := by
  cases h with
  | ended hpid halive hended hreaped =>
    rw [hended, List.mem_singleton] at hp
    subst hp
    exact .collected hpid halive (by simp [hended]) rfl
  | runs _ _ hended | collected _ _ hended | handled _ _ hended => rw [hended] at hp; cases hp

/-- The death is ignored, so that it only leaves the service without a process. -/
theorem OldProcess.handle {child : Pid} {context : DeathContext}
    (hchild : s.reaped = some child) (hignore : s.service.tempIgoreDeath = true)
    (hlaunch : launch { s with service := (handleDeadChild context child s.service).1,
                               reaped := none }
      (handleDeadChild context child s.service).2 context.forkPid = some s') :
    s' = { s with service := { s.service with currentPid := 0 }, reaped := none } ∧
      OldProcess pid s' := by
  cases h with
  | collected hpid halive hended hreaped =>
    have hsame : s.service.currentPid = child := by
      rw [hpid]
      exact Option.some.inj (hreaped.symm.trans hchild)
    have hdead : handleDeadChild context child s.service =
        ({ s.service with currentPid := 0 }, false) := by
      unfold handleDeadChild handleDeath
      dsimp only
      rw [if_pos hsame, if_pos hignore, if_pos hignore]
      split <;> rfl
    rw [hdead, launch_false] at hlaunch
    cases hlaunch
    exact ⟨rfl, .handled rfl halive hended rfl⟩
  | runs _ _ _ hreaped | ended _ _ _ hreaped | handled _ _ _ hreaped =>
    rw [hreaped] at hchild; cases hchild

end

/-! ## Until the call returns -/

/-- If the service still has the old process, this one has ended or was sent `SIGKILL`. -/
def Doomed (pid : Pid) (s : State) : Prop :=
  s.service.currentPid = pid → pid ∉ s.alive ∨ ⟨pid, .sigkill⟩ ∈ s.sent

/-- What is known where the operation stands: from its first wait on deaths are ignored, and when
the stop half is done, the old process is doomed. -/
def StopPhase (pid : Pid) (s : State) : Prop :=
  match s.pc with
  | .begin => s.service.currentPid = pid
  | .ipc p => p = pid ∧ s.service.currentPid = pid ∧ s.service.tempIgoreDeath = true
  | .polling p _ _ => p = pid ∧ s.service.tempIgoreDeath = true
  | .waiting p _ _ => p = pid ∧ s.service.tempIgoreDeath = true
  | .stopped => s.service.tempIgoreDeath = true ∧ Doomed pid s
  | .returned => False

structure Stopping (pid : Pid) (s : State) : Prop where
  exec : s.service.execPath ≠ ""
  old : OldProcess pid s
  launched : s.launched = []
  phase : StopPhase pid s

variable {isDead : Bool} {s₁ : State} {o : Unit}

section

variable (h : Decides pid s₁ isDead s') (hpos : pid > 0)
  (hignore : s₁.service.tempIgoreDeath = true) (hdead : isDead = true → pid ∉ s₁.alive)
include h hpos hignore hdead

/-- A decision leads to a wait, or to the end of the stop half with the old process doomed. -/
theorem StopPhase.of_decides : StopPhase pid s' := by
  have hservice := h.service_eq
  have halive : s'.alive = s₁.alive := by rw [h.frame]
  unfold StopPhase
  obtain hpc | hpc := h.pc <;> rw [hpc]
  · refine ⟨by rw [hservice]; exact hignore, fun hpid => ?_⟩
    rw [hservice] at hpid
    obtain ⟨-, -, signal, hsent, hkill⟩ | ⟨hnot, -⟩ := h.sent
    · right
      rw [hsent, hkill hpc, hpid]
      exact List.mem_append_right _ (List.mem_singleton.mpr rfl)
    · left
      rw [halive]
      apply hdead
      cases isDead with
      | true => rfl
      | false => exact absurd ⟨rfl, hpid ▸ hpos⟩ hnot
  · exact ⟨rfl, by rw [hservice]; exact hignore⟩

theorem Stopping.of_decides (hexec : s₁.service.execPath ≠ "") (hold : OldProcess pid s₁)
    (hlaunched : s₁.launched = []) : Stopping pid s' where
  exec := by rw [h.service_eq]; exact hexec
  old := hold.congr (by rw [h.frame]) (by rw [h.frame]) (by rw [h.frame]) (by rw [h.frame])
  launched := by rw [h.frame]; exact hlaunched
  phase := StopPhase.of_decides h hpos hignore hdead

end

/-- A result `true` of `waitForDeath` is to be trusted. -/
theorem not_mem_alive_of_waitForDeath {n : Nat} {others : Bool}
    (hends : waitEnds s pid n others = true) (h : waitForDeathResult n = true) : pid ∉ s.alive := by
  have hshort : n < 5 := by simpa [waitForDeathResult] using h
  intro halive
  have hlong : n < deathWaitSecs := Nat.lt_trans hshort (by decide)
  simp [waitEnds, isProcessAlive, halive, hlong] at hends

theorem Stopping.begin (hop : op.ignoreDeath = true) (hpos : pid > 0) (h : Stopping pid s)
    (hpc : s.pc = .begin) : Stopping pid (beginStop op s) := by
  have hpid : s.service.currentPid = pid := by
    have hphase := h.phase
    unfold StopPhase at hphase
    rwa [hpc] at hphase
  have hold : OldProcess pid { s with service := markForStop op s.service } :=
    h.old.congr rfl rfl rfl rfl
  obtain ⟨hnone, -⟩ | ⟨-, hbegin | hbegin⟩ := beginStop_cases op s
  · exact absurd (hpid ▸ hnone) (Int.not_le.mpr hpos)
  · rw [hbegin]
    exact { h with old := h.old.congr rfl rfl rfl rfl, phase := ⟨hpid, hpid, hop⟩ }
  · rw [hbegin, hpid]
    have hdecides := decides_sendSignal op pid { s with service := markForStop op s.service } false
    exact of_decides hdecides hpos hop (fun hfalse => by cases hfalse) h.exec hold h.launched

/-- The operation goes on until the stop half is done. -/
theorem Stopping.operationStep (hop : op.ignoreDeath = true) (hpos : pid > 0) (h : Stopping pid s)
    (hstep : operationStep op s event = some s') :
    (Stopping pid s' ∧ HandledInTime s event) ∨
      ∃ forkPid now, s.pc = .stopped ∧ event = .finish forkPid now := by
  have hphase := h.phase
  unfold StopPhase at hphase
  obtain ⟨hpc, rfl, rfl⟩ | ⟨p, success, hpc, rfl, rfl⟩ | ⟨p, after, n, others, hpc, rfl, hpoll⟩ |
    ⟨p, after, n, hpc, rfl, rfl⟩ | ⟨forkPid, now, hpc, rfl, -⟩ := operationStep_cases hstep
  all_goals rw [hpc] at hphase
  · exact .inl ⟨h.begin hop hpos hpc, trivial⟩
  · obtain ⟨rfl, -, hignore⟩ := hphase
    refine .inl ⟨?_, trivial⟩
    split
    · exact { h with old := h.old.congr rfl rfl rfl rfl, phase := ⟨rfl, hignore⟩ }
    · exact of_decides (decides_afterIpc op p s false) hpos hignore (fun hfalse => by cases hfalse)
        h.exec h.old h.launched
  · obtain ⟨rfl, hignore⟩ := hphase
    refine .inl ⟨?_, trivial⟩
    obtain ⟨hends, rfl⟩ | ⟨-, rfl⟩ := hpoll
    · exact of_decides (decides_afterWait op p s _ after) hpos hignore
        (not_mem_alive_of_waitForDeath hends) h.exec h.old h.launched
    · exact { h with old := h.old.congr rfl rfl rfl rfl, phase := ⟨rfl, hignore⟩ }
  · exact .inl ⟨{ h with old := h.old.congr rfl rfl rfl rfl, phase := hphase }, trivial⟩
  · exact .inr ⟨forkPid, now, hpc, rfl⟩

theorem Doomed.mono (h : Doomed pid s) (hservice : s'.service = s.service)
    (hsent : s'.sent = s.sent) (halive : ∀ p ∈ s'.alive, p ∈ s.alive) : Doomed pid s' := by
  intro hpid
  rw [hservice] at hpid
  obtain hdead | hkilled := h hpid
  · exact .inl fun hmem => hdead (halive pid hmem)
  · exact .inr (hsent ▸ hkilled)

theorem StopPhase.mono (h : StopPhase pid s) (hpc : s'.pc = s.pc)
    (hservice : s'.service = s.service)
    (hsent : s'.sent = s.sent) (halive : ∀ p ∈ s'.alive, p ∈ s.alive) : StopPhase pid s' := by
  unfold StopPhase at h ⊢
  rw [hpc, hservice]
  cases hcase : s.pc with
  | stopped =>
    rw [hcase] at h
    exact ⟨h.1, h.2.mono hservice hsent halive⟩
  | _ => rw [hcase] at h; exact h

/-- Every step but the last of the call keeps the invariant. -/
theorem Stopping.step (hop : op.ignoreDeath = true) (hpos : pid > 0) (h : Stopping pid s)
    (hstep : step op s event = some (s', o)) :
    (Stopping pid s' ∧ HandledInTime s event) ∨
      ∃ forkPid now, s.pc = .stopped ∧ event = .finish forkPid now := by
  obtain ⟨p, rfl, hp, rfl⟩ | ⟨p, rfl, hp, -, rfl⟩ | ⟨context, child, rfl, hfree, hchild, hlaunch⟩ |
    hstep := step_cases hstep
  · refine .inl ⟨{ h with old := h.old.exit hp, phase := ?_ }, trivial⟩
    exact h.phase.mono rfl rfl rfl fun _ hmem => List.mem_of_mem_erase hmem
  · exact .inl ⟨{ h with old := h.old.reap hp }, trivial⟩
  · have hphase := h.phase
    unfold StopPhase at hphase
    obtain ⟨p, after, n, hpc⟩ | hpc := Pc.unlocked_cases hfree
    · rw [hpc] at hphase
      obtain ⟨rfl, hold⟩ := h.old.handle hchild hphase.2 hlaunch
      refine .inl ⟨{ h with old := hold, phase := ?_ }, trivial⟩
      rw [hpc]
      exact hphase
    · rw [hpc] at hphase
      exact hphase.elim
  · exact h.operationStep hop hpos hstep

/-! ## After the call has returned -/

/-- The call returned without a start: the death of the old process is ignored. -/
structure Lost (pid : Pid) (s : State) : Prop where
  returned : s.pc = .returned
  old : OldProcess pid s
  launched : s.launched = []
  ignore : s.service.tempIgoreDeath = true
  doomed : Doomed pid s

/-- The call started a new process. -/
def Restarted (s : State) : Prop :=
  s.pc = .returned ∧ ∃ p, s.service.currentPid = p ∧ s.alive = [p] ∧ s.ended = [] ∧
    s.reaped = none ∧ s.launched = [p]

theorem operationStep_of_returned (h : s.pc = .returned) : operationStep op s event = none := by
  unfold operationStep
  rw [h]

/-- A service that is lost stays lost. -/
theorem Lost.step (hpos : pid > 0) (h : Lost pid s) (hstep : step op s event = some (s', o)) :
    Lost pid s' := by
  obtain ⟨p, rfl, hp, rfl⟩ | ⟨p, rfl, hp, -, rfl⟩ | ⟨context, child, rfl, -, hchild, hlaunch⟩ |
    hstep := step_cases hstep
  · exact { h with
      old := h.old.exit hp
      doomed := h.doomed.mono rfl rfl fun _ hmem => List.mem_of_mem_erase hmem }
  · exact { h with old := h.old.reap hp }
  · obtain ⟨rfl, hold⟩ := h.old.handle hchild h.ignore hlaunch
    exact { h with old := hold, doomed := fun hpid => absurd hpid (Int.ne_of_lt hpos) }
  · rw [operationStep_of_returned h.returned] at hstep
    cases hstep

theorem Restarted.restartStep_eq_none (h : Restarted s) (event : Event) :
    restartStep s event = none := by
  obtain ⟨hpc, p, -, halive, hended, hreaped, hlaunched⟩ := h
  unfold restartStep
  split
  · rename_i hquiet
    rw [Option.eq_none_iff_forall_ne_some]
    rintro ⟨s', o⟩ hstep
    obtain ⟨p', rfl, hp, -⟩ | ⟨p', rfl, hp, -, -⟩ | ⟨context, child, rfl, -, hchild, -⟩ | hstep :=
      step_cases hstep
    · rw [halive] at hp
      exact hquiet (hlaunched ▸ hp)
    · rw [hended] at hp
      cases hp
    · rw [hreaped] at hchild
      cases hchild
    · rw [operationStep_of_returned hpc] at hstep
      cases hstep
  · rfl

/-! ## The start half -/

theorem OldProcess.of_not_pos (h : OldProcess pid s) (hpos : pid > 0)
    (hnone : s.service.currentPid ≤ 0) : s.alive = [] ∧ s.ended = [] ∧ s.reaped = none := by
  cases h with
  | handled _ halive hended hreaped => exact ⟨halive, hended, hreaped⟩
  | runs hpid | ended hpid | collected hpid => exact absurd (hpid ▸ hnone) (Int.not_le.mpr hpos)

/-- The last step of the call starts the service exactly if it has no process any more. -/
theorem Stopping.finish {forkPid : Pid} {now : Int} (hpos : pid > 0) (h : Stopping pid s)
    (hpc : s.pc = .stopped) (hfork : forkPid > 0)
    (hstep : Watchdog.step restartProcessAction s (.finish forkPid now) = some (s', o)) :
    (s.service.currentPid ≤ 0 ∧ Restarted s') ∨ (¬ s.service.currentPid ≤ 0 ∧ Lost pid s') := by
  have hphase := h.phase
  unfold StopPhase at hphase
  rw [hpc] at hphase
  have hlaunch : launch
      { s with service := (executeStartOperation forkPid now s.service).1, pc := .returned }
      (executeStartOperation forkPid now s.service).2 forkPid = some s' := by
    unfold Watchdog.step Watchdog.operationStep at hstep
    rw [hpc] at hstep
    obtain ⟨s₁, h₁, heq⟩ := Option.map_eq_some_iff.mp hstep
    rw [← (Prod.mk.inj heq).1]
    exact h₁
  -- the start half decides by `currentPid` alone
  unfold executeStartOperation at hlaunch
  rw [if_neg h.exec] at hlaunch
  by_cases hrunning : s.service.currentPid > 0
  · -- the start half takes the service for running
    rw [if_pos hrunning, launch_false] at hlaunch
    cases hlaunch
    exact .inr ⟨Int.not_le.mpr hrunning, rfl, h.old.congr rfl rfl rfl rfl, h.launched, hphase.1,
      hphase.2⟩
  · have hnone := Int.not_lt.mp hrunning
    obtain ⟨halive, hended, hreaped⟩ := h.old.of_not_pos hpos hnone
    rw [if_neg hrunning] at hlaunch
    left
    obtain ⟨-, -, -, -, rfl⟩ | ⟨hnot, -⟩ := launch_cases hlaunch
    · refine ⟨hnone, rfl, forkPid, ?_, ?_, hended, hreaped, ?_⟩
      · exact congrArg ServiceDefinition.currentPid (if_pos hfork)
      · exact congrArg _ halive
      · exact congrArg _ h.launched
    · exact absurd ⟨rfl, hfork⟩ hnot

/-! ## Whole runs -/

/-- Before, with or without a start: these are the states of a call. -/
def CallState (pid : Pid) (s : State) : Prop := Stopping pid s ∨ Restarted s ∨ Lost pid s

theorem Stopping.not_lost (h : Stopping pid s) : ¬ Lost pid s := by
  intro hlost
  have hphase := h.phase
  unfold StopPhase at hphase
  rw [hlost.returned] at hphase
  exact hphase

theorem Restarted.not_lost (h : Restarted s) : ¬ Lost pid s := by
  intro hlost
  obtain ⟨-, p, -, -, -, -, hlaunched⟩ := h
  rw [hlost.launched] at hlaunched
  cases hlaunched

/-- The service is lost in the step that looks at it too early, and in no other. -/
theorem restartStep_lost_iff (hpos : pid > 0) (h : CallState pid s)
    (hstep : restartStep s event = some (s', o)) :
    CallState pid s' ∧ (¬ Lost pid s' ↔ ¬ Lost pid s ∧ HandledInTime s event) := by
  obtain hstopping | hrestarted | hlost := h
  · rw [and_iff_right hstopping.not_lost]
    unfold restartStep at hstep
    split at hstep
    · rename_i hquiet
      obtain ⟨hstopping', hin⟩ | ⟨forkPid, now, hpc, rfl⟩ := hstopping.step rfl hpos hstep
      · exact ⟨.inl hstopping', iff_of_true hstopping'.not_lost hin⟩
      · obtain ⟨hnone, hrestarted⟩ | ⟨hsome, hlost⟩ := hstopping.finish hpos hpc hquiet hstep
        · exact ⟨.inr (.inl hrestarted), iff_of_true hrestarted.not_lost hnone⟩
        · exact ⟨.inr (.inr hlost), iff_of_false (not_not_intro hlost) hsome⟩
    · cases hstep
  · rw [hrestarted.restartStep_eq_none] at hstep
    cases hstep
  · unfold restartStep at hstep
    split at hstep
    · have hlost' := hlost.step hpos hstep
      refine ⟨.inr (.inr hlost'), iff_of_false (not_not_intro hlost') ?_⟩
      exact fun hnot => hnot.1 hlost
    · cases hstep

/-- When the call has returned and the service is not lost, it has a live process. -/
theorem CallState.live_of_not_lost (h : CallState pid s) (hreturned : s.pc = .returned)
    (hnot : ¬ Lost pid s) : s.service.currentPid ∈ s.alive := by
  obtain hstopping | ⟨-, p, hpid, halive, -⟩ | hlost := h
  · have hphase := hstopping.phase
    unfold StopPhase at hphase
    rw [hreturned] at hphase
    exact hphase.elim
  · rw [hpid, halive]
    exact List.mem_singleton.mpr rfl
  · exact absurd hlost hnot

/-- Once everything has settled, a lost service has no live process. -/
theorem Lost.not_live (h : Lost pid s) (hsettled : Settled s) :
    s.service.currentPid ∉ s.alive := by
  intro hlive
  cases h.old with
  | runs hpid halive _ _ =>
    have hmem : pid ∈ s.alive := hpid ▸ hlive
    obtain hdead | hkilled := h.doomed hpid
    · exact hdead hmem
    · exact hsettled.killed pid hkilled hmem
  | ended _ _ hended _ => rw [hsettled.collected] at hended; cases hended
  | collected _ _ _ hreaped => rw [hsettled.handled] at hreaped; cases hreaped
  | handled _ halive _ _ => rw [halive] at hlive; cases hlive

/-- When a restart call for a running service with an executable has returned, the service has a
live process if the death of the old one was handled before the start half looked at it; and only
then, once everything has settled. -/
theorem restart_leaves_live_iff {service : ServiceDefinition} (hexec : service.execPath ≠ "")
    (hrunning : service.currentPid > 0) {events : List Event} {s' : State} {os : List Unit}
    (hrun : run restartStep (running service) events = some (s', os))
    (hreturned : s'.pc = .returned) :
    (Guarded restartStep HandledInTime (running service) events →
      s'.service.currentPid ∈ s'.alive) ∧
    (Settled s' → s'.service.currentPid ∈ s'.alive →
      Guarded restartStep HandledInTime (running service) events) := by
  have hbegin : Stopping service.currentPid (running service) :=
    ⟨hexec, .runs rfl rfl rfl rfl, rfl, rfl⟩
  obtain ⟨hend, hlost⟩ := run_iff_guarded
    (fun _ _ _ _ h hstep => restartStep_lost_iff hrunning h hstep) (.inl hbegin) hrun
  refine ⟨fun hguarded => ?_, fun hsettled hlive => ?_⟩
  · exact hend.live_of_not_lost hreturned (hlost.mpr ⟨hbegin.not_lost, hguarded⟩)
  · exact (hlost.mp fun h => h.not_live hsettled hlive).2

/-- The process gets `SIGTERM`, dies, and its death is handled in the first wait. -/
def handledInWait : List Event :=
  [.begin, .poll false, .exit 100, .reap 100, .handle ⟨50, true, 101, 50⟩, .wake, .poll false,
    .finish 101 60]

/-- The process 101 has taken the place of the process 100. -/
def afterRestart : State where
  service := { sampleService with currentPid := 101, lastRestartTimeMono := 60 }
  pc := .returned
  alive := [101]
  ended := []
  reaped := none
  sent := [⟨100, .sigterm⟩]
  launched := [101]

theorem restart_leaves_live_iff_handledInWait :
    (Guarded restartStep HandledInTime (running sampleService) handledInWait →
      afterRestart.service.currentPid ∈ afterRestart.alive) ∧
    (Settled afterRestart → afterRestart.service.currentPid ∈ afterRestart.alive →
      Guarded restartStep HandledInTime (running sampleService) handledInWait) := by
  have hrun : run restartStep (running sampleService) handledInWait =
      some (afterRestart, List.replicate 8 ()) := by decide +kernel
  exact restart_leaves_live_iff (by decide) (by decide) hrun rfl

/-- A service that can be asked to shut down. -/
def politeService : ServiceDefinition := { sampleService with shutdownToken := some "token" }

/-- The service shuts down before the watchdog waits for it, and is never started again. -/
theorem prompt_shutdown_stays_down :
    ∃ s' os, run restartStep (running politeService)
        [.begin, .exit 100, .reap 100, .ipc true, .poll false, .finish 101 60,
          .handle ⟨60, true, 101, 60⟩] = some (s', os) ∧
      Settled s' ∧ s'.service.currentPid = 0 ∧ s'.alive = [] := by
  refine ⟨_, _, rfl, ⟨rfl, rfl, rfl, ?_⟩, rfl, rfl⟩
  exact nofun

theorem OldProcess.length_le (h : OldProcess pid s) :
    (s.alive ++ s.ended ++ s.reaped.toList).length ≤ 1 := by
  cases h <;> simp [*]

/-- During a restart the service never has two processes, and a new one is launched only after the
death of the old one was handled. -/
theorem restart_one_process {service : ServiceDefinition} (hexec : service.execPath ≠ "")
    (hrunning : service.currentPid > 0) {events : List Event} {os : List Unit}
    (hrun : run restartStep (running service) events = some (s, os)) :
    (s.alive ++ s.ended ++ s.reaped.toList).length ≤ 1 ∧
      (s.launched = [] ∨ s.launched = s.alive ∧ s.alive.length = 1) := by
  have hbegin : Stopping service.currentPid (running service) :=
    ⟨hexec, .runs rfl rfl rfl rfl, rfl, rfl⟩
  obtain ⟨hend, -⟩ := run_iff_guarded
    (fun _ _ _ _ h hstep => restartStep_lost_iff hrunning h hstep) (.inl hbegin) hrun
  obtain hstopping | ⟨-, p, -, halive, hended, hreaped, hlaunched⟩ | hlost := hend
  · exact ⟨hstopping.old.length_le, .inl hstopping.launched⟩
  · simp [halive, hended, hreaped, hlaunched]
  · exact ⟨hlost.old.length_le, .inl hlost.launched⟩

theorem restart_one_process_handledInWait :
    ∃ r, run restartStep (running sampleService) handledInWait = some r ∧
      (r.1.alive ++ r.1.ended ++ r.1.reaped.toList).length ≤ 1 := by
  obtain ⟨r, hrun⟩ : ∃ r, run restartStep (running sampleService) handledInWait = some r := ⟨_, rfl⟩
  exact ⟨r, hrun, (restart_one_process (by decide) (by decide) hrun).1⟩

end ZilkerSdk.Watchdog
