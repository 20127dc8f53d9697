/-
Attempts of one operation over a changing network
(cpp/ssh/ssh_operation_executor.cpp, cpp/ssh/ssh_network_generation_policy.h).

`runSshOperationNetworkAttempts` is a machine of the phases its two loops have
between the points where another thread can act: what the clock, the network
and a canceller say comes from outside, one answer for each step. An attempt
starts only at the head of the loop, and the head is reached again only by a
decision that found a newer network available; that carries the bound, the
order of generations and the rule of one attempt for a login that cannot be
repeated (`Sound`).

The caller finishes the control after the run, so nothing here does.
-/
import RemoteDesk.Lib.Runs

namespace RemoteDesk.Ssh.Operation

open Lib

structure NetworkGenerationSnapshot where
  generation : Nat
  available : Bool
  deriving DecidableEq

inductive SshNetworkRetryDecision
  | complete | retryCurrentNetwork | waitForAvailableNetwork | stopCancelled
  | stopDeadline | stopExhausted
  deriving DecidableEq

def kMaxRouteAttempts : Nat := 3

def retryDecision (attemptsStarted : Nat)
    (callerCancelled deadlineExpired : Bool)
    (captured current : NetworkGenerationSnapshot) : SshNetworkRetryDecision :=
  if callerCancelled then .stopCancelled
  else if deadlineExpired then .stopDeadline
  else if captured.generation ≠ 0 ∧ captured.available = true
      ∧ current.available = true
      ∧ current.generation = captured.generation then .complete
  else if kMaxRouteAttempts ≤ attemptsStarted then .stopExhausted
  else if current.generation = 0 ∨ current.generation < captured.generation then
    .stopExhausted
  else if current.available = false then .waitForAvailableNetwork
  else if current.generation ≤ captured.generation then .stopExhausted
  else .retryCurrentNetwork

inductive SshOperationCancelReason
  | none | user | deadline | networkChanged
  deriving DecidableEq

structure SshOperationControl where
  cancelReason : SshOperationCancelReason := .none
  finished : Bool := false

namespace SshOperationControl

/-- The first reason stays. -/
def cancel (control : SshOperationControl) (reason : SshOperationCancelReason) :
    SshOperationControl :=
  if reason = .none then control
  else if control.finished then control
  else if control.cancelReason = .none then { control with cancelReason := reason }
  else control

def cancelled (control : SshOperationControl) : Bool :=
  control.cancelReason ≠ .none

end SshOperationControl

inductive SshOperationNetworkRetryResult
  | finished | cancelled | deadline | networkChanged
  deriving DecidableEq

def cancelledResult : SshOperationCancelReason → SshOperationNetworkRetryResult
  | .deadline => .deadline
  | .networkChanged => .networkChanged
  | .user | .none => .cancelled

inductive SshOperationNewSessionPolicy
  | retrySafe | requiresFreshAuthentication
  deriving DecidableEq

/-- Where a run stands. -/
inductive Phase
  | head
  | attempting
  | decided (decision : SshNetworkRetryDecision)
  | returned (result : SshOperationNetworkRetryResult)
  deriving DecidableEq

structure Run where
  policy : SshOperationNewSessionPolicy
  control : SshOperationControl
  captured : NetworkGenerationSnapshot
  current : NetworkGenerationSnapshot
  attemptsStarted : Nat := 0
  phase : Phase := .head
  /-- The snapshots of the attempts so far. -/
  attempts : List NetworkGenerationSnapshot := []

inductive Op
  /-- Someone cancels the operation. -/
  | cancel (reason : SshOperationCancelReason)
  /-- The run goes on: what it finds when it looks at the clock, at the network
  and at the clock again. -/
  | advance (late : Bool) (seen : NetworkGenerationSnapshot) (lateNow : Bool)

namespace Run

def stop (s : Run) (reason : SshOperationCancelReason)
    (result : SshOperationNetworkRetryResult) : Run :=
  { s with control := s.control.cancel reason, phase := .returned result }

def advance (s : Run) (late : Bool) (seen : NetworkGenerationSnapshot)
    (lateNow : Bool) : Run :=
  match s.phase with
  | .head =>
    if s.control.cancelled then
      { s with phase := .returned (cancelledResult s.control.cancelReason) }
    else if late then s.stop .deadline .deadline
    else
      { s with attemptsStarted := s.attemptsStarted + 1
               attempts := s.attempts ++ [s.captured]
               phase := .attempting }
  | .attempting =>
    let decision := retryDecision s.attemptsStarted s.control.cancelled late
      s.captured seen
    if s.policy = .requiresFreshAuthentication
        ∧ (decision = .retryCurrentNetwork
          ∨ decision = .waitForAvailableNetwork) then
      { s with current := seen }.stop .networkChanged .networkChanged
    else { s with current := seen, phase := .decided decision }
  | .decided .waitForAvailableNetwork =>
    if late then s.stop .deadline .deadline
    else
      { s with current := seen
               phase := .decided (retryDecision s.attemptsStarted
                 s.control.cancelled lateNow s.captured seen) }
  | .decided .complete => { s with phase := .returned .finished }
  | .decided .retryCurrentNetwork =>
    { s with captured := s.current, phase := .head }
  | .decided .stopCancelled =>
    { s with phase := .returned (cancelledResult s.control.cancelReason) }
  | .decided .stopDeadline => s.stop .deadline .deadline
  | .decided .stopExhausted => s.stop .networkChanged .networkChanged
  | .returned _ => s

def step (s : Run) : Op → Run
  | .cancel reason => { s with control := s.control.cancel reason }
  | .advance late seen lateNow => s.advance late seen lateNow

end Run

/-- A run at its start; the operation may be cancelled already. -/
def start (initialSnapshot : NetworkGenerationSnapshot)
    (policy : SshOperationNewSessionPolicy)
    (reason : SshOperationCancelReason) : Run :=
  { policy, control := { cancelReason := reason }
    captured := initialSnapshot, current := initialSnapshot }

-- ================================ decisions

/-- The network of a retry, against that of the attempt before. -/
def Renewed (before after : NetworkGenerationSnapshot) : Prop :=
  after.available = true ∧ before.generation < after.generation

variable {captured current : NetworkGenerationSnapshot}
variable {reason : SshOperationCancelReason} {s : Run}

theorem retryDecision_complete {n : Nat} {cancelled late : Bool}
    (h : retryDecision n cancelled late captured current = .complete) :
    current.available = true ∧ current.generation = captured.generation := by
  unfold retryDecision at h
  split_ifs at h with _ _ hsame
  exact hsame.2.2

theorem retryDecision_retry {n : Nat} {cancelled late : Bool}
    (h : retryDecision n cancelled late captured current
      = .retryCurrentNetwork) :
    n < kMaxRouteAttempts ∧ Renewed captured current := by
  unfold retryDecision at h
  split_ifs at h with _ _ _ hcount _ havailable hnewer
  exact ⟨not_le.mp hcount, by simpa using havailable, not_le.mp hnewer⟩

theorem retryDecision_cancelled {n : Nat} {cancelled late : Bool}
    (h : retryDecision n cancelled late captured current = .stopCancelled) :
    cancelled = true := by
  unfold retryDecision at h
  split_ifs at h with hcancelled
  exact hcancelled

-- ================================ invariant

/-- What a decision says of the network it was made on. -/
def DecisionHolds (s : Run) : SshNetworkRetryDecision → Prop
  | .complete => s.current.available = true
      ∧ s.current.generation = s.captured.generation
  | .retryCurrentNetwork => s.policy = .retrySafe
      ∧ s.attemptsStarted < kMaxRouteAttempts ∧ Renewed s.captured s.current
  | .waitForAvailableNetwork => s.policy = .retrySafe
  | .stopCancelled => s.control.cancelled = true
  | .stopDeadline | .stopExhausted => True

/-- What holds in each phase. -/
def PhaseHolds (s : Run) : Prop :=
  match s.phase with
  | .head => s.attemptsStarted < kMaxRouteAttempts
      ∧ (s.attempts ≠ [] → s.policy = .retrySafe)
      ∧ ∀ last ∈ s.attempts.getLast?, Renewed last s.captured
  | .attempting => s.attempts.getLast? = some s.captured
  | .decided decision => s.attempts.getLast? = some s.captured
      ∧ DecisionHolds s decision
  | .returned .finished => s.attempts.getLast? = some s.captured
      ∧ s.current.available = true
      ∧ s.current.generation = s.captured.generation
  | .returned _ => s.control.cancelled = true

structure Sound (s : Run) : Prop where
  unfinished : s.control.finished = false
  counted : s.attempts.length = s.attemptsStarted
  few : s.attempts.length ≤ kMaxRouteAttempts
  renewed : s.attempts.IsChain Renewed
  once : s.policy = .requiresFreshAuthentication → s.attempts.length ≤ 1
  phase : PhaseHolds s

theorem cancelled_cancel {control : SshOperationControl}
    (h : control.cancelled = true) :
    (control.cancel reason).cancelled = true := by
  unfold SshOperationControl.cancel
  split_ifs with _ _ hnone
  · exact h
  · exact h
  · rw [SshOperationControl.cancelled, hnone] at h
    exact absurd h (by decide)
  · exact h

theorem cancel_cancels {control : SshOperationControl}
    (hreason : reason ≠ .none) (h : control.finished = false) :
    (control.cancel reason).cancelled = true := by
  unfold SshOperationControl.cancel
  rw [if_neg hreason, if_neg (by simp [h])]
  split_ifs with hnone
  · simpa [SshOperationControl.cancelled] using hreason
  · simpa [SshOperationControl.cancelled] using hnone

@[simp] theorem finished_cancel (control : SshOperationControl)
    (reason : SshOperationCancelReason) :
    (control.cancel reason).finished = control.finished := by
  unfold SshOperationControl.cancel
  split_ifs <;> rfl

theorem Sound.cancel (h : Sound s) (reason : SshOperationCancelReason) :
    Sound { s with control := s.control.cancel reason } := by
  refine ⟨?_, h.counted, h.few, h.renewed, h.once, ?_⟩
  · rw [finished_cancel]
    exact h.unfinished
  have hphase := h.phase
  unfold PhaseHolds at hphase ⊢
  dsimp only at hphase ⊢
  cases hp : s.phase with
  | head => rw [hp] at hphase; exact hphase
  | attempting => rw [hp] at hphase; exact hphase
  | decided decision =>
    rw [hp] at hphase
    refine ⟨hphase.1, ?_⟩
    cases decision with
    | stopCancelled => exact cancelled_cancel hphase.2
    | complete => exact hphase.2
    | retryCurrentNetwork => exact hphase.2
    | waitForAvailableNetwork => exact hphase.2
    | stopDeadline => trivial
    | stopExhausted => trivial
  | returned result =>
    rw [hp] at hphase
    cases result with
    | finished => exact hphase
    | cancelled => exact cancelled_cancel hphase
    | deadline => exact cancelled_cancel hphase
    | networkChanged => exact cancelled_cancel hphase

/-- A run that stops leaves its control cancelled. -/
theorem Sound.stop (h : Sound s) {result : SshOperationNetworkRetryResult}
    (hreason : reason ≠ .none)
    (hresult : result ≠ .finished) : Sound (s.stop reason result) := by
  refine ⟨?_, h.counted, h.few, h.renewed, h.once, ?_⟩
  · exact (finished_cancel s.control reason).trans h.unfinished
  have hcancelled := cancel_cancels hreason h.unfinished
  cases result with
  | finished => exact absurd rfl hresult
  | cancelled => exact hcancelled
  | deadline => exact hcancelled
  | networkChanged => exact hcancelled

theorem Sound.stopCancelled (h : Sound s)
    (hcancelled : s.control.cancelled = true) :
    Sound { s with
      phase := .returned (cancelledResult s.control.cancelReason) } := by
  refine ⟨h.unfinished, h.counted, h.few, h.renewed, h.once, ?_⟩
  unfold PhaseHolds
  cases hreason : s.control.cancelReason <;> exact hcancelled

/-- The decision after a snapshot holds of it. -/
theorem Sound.decide (h : Sound s) (late : Bool)
    (seen : NetworkGenerationSnapshot)
    (hlast : s.attempts.getLast? = some s.captured)
    (hsafe : s.policy = .retrySafe
      ∨ retryDecision s.attemptsStarted s.control.cancelled late s.captured seen
          ≠ .retryCurrentNetwork
        ∧ retryDecision s.attemptsStarted s.control.cancelled late s.captured
          seen ≠ .waitForAvailableNetwork) :
    Sound { s with
      current := seen
      phase := .decided (retryDecision s.attemptsStarted s.control.cancelled
        late s.captured seen) } := by
  refine ⟨h.unfinished, h.counted, h.few, h.renewed, h.once, hlast, ?_⟩
  cases hdecision : retryDecision s.attemptsStarted s.control.cancelled late
      s.captured seen with
  | complete => exact retryDecision_complete hdecision
  | retryCurrentNetwork =>
    obtain ⟨hcount, hrenewed⟩ := retryDecision_retry hdecision
    refine ⟨hsafe.resolve_right fun hno => hno.1 hdecision, hcount, hrenewed⟩
  | waitForAvailableNetwork =>
    exact hsafe.resolve_right fun hno => hno.2 hdecision
  | stopCancelled => exact retryDecision_cancelled hdecision
  | stopDeadline => trivial
  | stopExhausted => trivial

/-- An attempt that the head of the loop starts. -/
theorem Sound.attempt (h : Sound s) (hp : s.phase = .head) :
    Sound { s with
      attemptsStarted := s.attemptsStarted + 1
      attempts := s.attempts ++ [s.captured]
      phase := .attempting } := by
  have hphase := h.phase
  rw [PhaseHolds, hp] at hphase
  obtain ⟨hcount, honce, hrenewed⟩ := hphase
  have hcounted := h.counted
  refine ⟨h.unfinished, ?_, ?_, ?_, ?_, ?_⟩
  · rw [List.length_append, List.length_singleton, hcounted]
  · rw [List.length_append, List.length_singleton]
    omega
  · apply h.renewed.append (List.isChain_singleton _)
    intro last hlast next hnext
    rw [List.head?_cons, Option.mem_some_iff] at hnext
    exact hnext ▸ hrenewed last hlast
  · intro hpolicy
    cases hattempts : s.attempts with
    | nil => exact le_rfl
    | cons a rest =>
      have hsafe := honce (by rw [hattempts]; exact List.cons_ne_nil _ _)
      rw [show s.policy = _ from hpolicy] at hsafe
      cases hsafe
  · show (s.attempts ++ [s.captured]).getLast? = some s.captured
    exact List.getLast?_concat ..

theorem Sound.advance (h : Sound s) (late : Bool)
    (seen : NetworkGenerationSnapshot) (lateNow : Bool) :
    Sound (s.advance late seen lateNow) := by
  have hphase := h.phase
  unfold Run.advance
  rw [PhaseHolds] at hphase
  cases hp : s.phase with
  | head =>
    dsimp only
    split_ifs with hcancelled hlate
    · exact h.stopCancelled hcancelled
    · exact h.stop (by decide) (by decide)
    · exact h.attempt hp
  | attempting =>
    rw [hp] at hphase
    dsimp only
    split_ifs with hfresh
    · refine Sound.stop (s := { s with current := seen }) ?_ (by decide)
        (by decide)
      refine ⟨h.unfinished, h.counted, h.few, h.renewed, h.once, ?_⟩
      rw [PhaseHolds]
      dsimp only
      rw [hp]
      exact hphase
    · apply h.decide late seen hphase
      rw [not_and_or, not_or] at hfresh
      refine hfresh.imp_left fun hpolicy => ?_
      cases hpol : s.policy with
      | retrySafe => rfl
      | requiresFreshAuthentication => exact absurd hpol hpolicy
  | decided decision =>
    rw [hp] at hphase
    obtain ⟨hlast, hdecision⟩ := hphase
    cases decision with
    | waitForAvailableNetwork =>
      dsimp only
      split_ifs with hlate
      · exact h.stop (by decide) (by decide)
      · exact h.decide lateNow seen hlast (.inl hdecision)
    | complete =>
      exact ⟨h.unfinished, h.counted, h.few, h.renewed, h.once, hlast,
        hdecision⟩
    | retryCurrentNetwork =>
      obtain ⟨hsafe, hcount, hrenewed⟩ := hdecision
      refine ⟨h.unfinished, h.counted, h.few, h.renewed, h.once, hcount,
        fun _ => hsafe, ?_⟩
      intro last hmem
      rw [hlast, Option.mem_some_iff] at hmem
      exact hmem ▸ hrenewed
    | stopCancelled => exact h.stopCancelled hdecision
    | stopDeadline => exact h.stop (by decide) (by decide)
    | stopExhausted => exact h.stop (by decide) (by decide)
  | returned result => exact h

theorem sound_start (initialSnapshot : NetworkGenerationSnapshot)
    (policy : SshOperationNewSessionPolicy)
    (reason : SshOperationCancelReason) :
    Sound (start initialSnapshot policy reason) := by
  refine ⟨rfl, rfl, Nat.zero_le _, List.isChain_nil, fun _ => Nat.zero_le _, ?_⟩
  have hpos : 0 < kMaxRouteAttempts := by decide
  exact ⟨hpos, fun h => absurd rfl h, fun last hlast => by cases hlast⟩

-- ===================================== runs

/-- What holds of an operation, wherever its run stands. -/
structure Retried (s : Run) : Prop where
  few : s.attempts.length ≤ kMaxRouteAttempts
  renewed : s.attempts.IsChain Renewed
  once : s.policy = .requiresFreshAuthentication → s.attempts.length ≤ 1
  finished : s.phase = .returned .finished →
    ∃ last ∈ s.attempts.getLast?, s.current.available = true
      ∧ s.current.generation = last.generation
  cancelled : ∀ result, s.phase = .returned result → result ≠ .finished →
    s.control.cancelled = true

theorem Sound.retried (h : Sound s) : Retried s := by
  have hphase := h.phase
  rw [PhaseHolds] at hphase
  refine ⟨h.few, h.renewed, h.once, ?_, ?_⟩
  · intro hp
    rw [hp] at hphase
    obtain ⟨hlast, hcurrent⟩ := hphase
    exact ⟨s.captured, hlast, hcurrent⟩
  · intro result hp hresult
    rw [hp] at hphase
    cases result with
    | finished => exact absurd rfl hresult
    | cancelled => exact hphase
    | deadline => exact hphase
    | networkChanged => exact hphase

theorem operation_retried (initialSnapshot : NetworkGenerationSnapshot)
    (policy : SshOperationNewSessionPolicy)
    (reason : SshOperationCancelReason) (ops : List Op) :
    Retried (exec Run.step (start initialSnapshot policy reason) ops) := by
  apply Sound.retried
  refine exec_invariant ?_ ops (sound_start initialSnapshot policy reason)
  intro s op hs
  cases op with
  | cancel r => exact hs.cancel r
  | advance late seen lateNow => exact hs.advance late seen lateNow

end RemoteDesk.Ssh.Operation
