/-
How long a restored store stays in quarantine.

A run is a list of transitions, watched for what may end the quarantine:
a release, a completed resolution, or an attempt that ends in a stronger
state (`Mode`). Transitions that pass through a transient phase forget the
quarantine; a run that keeps to `Keeps` does not (`quarantine_held`).
-/
import RemoteDesk.Cloud.LifecyclePolicy
import RemoteDesk.Lib.Runs

namespace RemoteDesk.Cloud

open Lib

-- ============================= transitions

inductive Transition where
  | intents (dirtyTables conflictTables : List Text)
      (retryRecords : List CloudSyncRetryRecord)
  | started (source : Text) (direction : CloudSyncDirection)
  | finished (result : OperationEnd)
  | attemptFinished (result : OperationEnd)
  | externalRequired (failedTables : List Text)
  | externalSettled (binding : CloudAccountBinding) (transferEnabled : Bool)
      (restoredTables : List Text)
  | indeterminateSettled (binding : CloudAccountBinding)
      (transferEnabled : Bool)
  | bootstrapped
  | quarantined
  | released (before : CloudSyncDurableState)
  | completed
  | quiescing
  | quiesced (binding : CloudAccountBinding) (transferEnabled : Bool)
  | restarted (binding : CloudAccountBinding)
      (transferEnabled bootstrapCompleted : Bool)

/-- A transition at a time. -/
structure Timed where
  transition : Transition
  now : Int

def Timed.apply (s : CloudSyncDurableState) (t : Timed) :
    CloudSyncDurableState :=
  match t.transition with
  | .intents dirty conflicts retries =>
    cloudSyncDurableStateWithIntents s dirty conflicts retries t.now
  | .started source direction =>
    cloudSyncOperationStarted s source direction t.now
  | .finished result => cloudSyncOperationFinished s result t.now
  | .attemptFinished result =>
    cloudSyncRestoreResolutionAttemptFinished s result t.now
  | .externalRequired tables =>
    cloudSyncExternalRecoveryRequired s tables t.now
  | .externalSettled binding enabled tables =>
    cloudSyncExternalRecoverySettled s binding enabled tables t.now
  | .indeterminateSettled binding enabled =>
    cloudSyncIndeterminateSettled s binding enabled t.now
  | .bootstrapped => cloudSyncBootstrapCompleted s t.now
  | .quarantined => cloudSyncRestoreQuarantined s t.now
  | .released before => cloudSyncRestoreReleased s before t.now
  | .completed => cloudSyncRestoreResolutionCompleted s t.now
  | .quiescing => cloudSyncQuiescing s t.now
  | .quiesced binding enabled => cloudSyncQuiesced s binding enabled t.now
  | .restarted binding enabled bootstrapped =>
    recoverCloudSyncDurableState (some s) binding enabled bootstrapped
      t.now

/-- Whether the quarantine still has to hold. -/
inductive Mode where
  | held
  /-- An attempt to resolve the restore is on its way. -/
  | attempting
  | released
deriving DecidableEq, Repr

structure Watch where
  state : CloudSyncDurableState
  mode : Mode

/-- What a transition makes of the quarantine. -/
def Mode.after (mode : Mode) (next : CloudSyncDurableState) :
    Transition → Mode
  | .released _ | .completed => .released
  | .quarantined => .held
  | .started _ _ => if mode = .held then .attempting else mode
  | .attemptFinished _ =>
    if mode = .released ∨ next.phase = .blocked
        ∨ next.phase = .recoveryRequired then .released
    else .held
  -- a process that dies in an attempt ends it in the recovery state
  | .restarted _ _ _ => if mode = .attempting then .released else mode
  | _ => mode

def watch (w : Watch) (t : Timed) : Watch where
  state := t.apply w.state
  mode := w.mode.after (t.apply w.state) t.transition

/-- Transfers are on, for a valid binding. -/
def Enabled (binding : CloudAccountBinding) (transferEnabled : Bool) : Prop :=
  transferEnabled = true ∧ cloudAccountBindingIsValid binding = true

/-- The condition on a transition: it leaves the quarantine where it is. -/
def Keeps (w : Watch) (t : Timed) : Prop :=
  match t.transition, w.mode with
  | .restarted binding _ _, _ => belongs w.state binding
  | _, .released => True
  -- an operation in flight when the quarantine began must succeed
  | .finished result, .held => result.ok = true ∧ result.rollbackFailed = false
  | .finished _, .attempting => False
  | .externalRequired _, _ => False
  | .indeterminateSettled binding enabled, .held => Enabled binding enabled
  | .indeterminateSettled _ _, .attempting => False
  | .bootstrapped, .attempting => False
  | .quiescing, .held => False
  | .quiesced binding enabled, .held => Enabled binding enabled
  | .quiesced _ _, .attempting => False
  | _, _ => True

-- =============================== revisions

/-- A transition leaves the state as it is, or takes the next revision. -/
theorem revision_grows {w : Watch} {t : Timed} (h : Keeps w t) :
    t.apply w.state = w.state
      ∨ w.state.revision < (t.apply w.state).revision := by
  obtain ⟨transition, now⟩ := t
  cases transition with
  | attemptFinished result =>
    refine .inr ?_
    show _ < (cloudSyncRestoreResolutionAttemptFinished _ result now).revision
    unfold cloudSyncRestoreResolutionAttemptFinished
    dsimp only
    split
    · exact Int.lt_succ _
    · show w.state.revision < w.state.revision + 1 + 1
      omega
  | externalSettled binding enabled tables =>
    show cloudSyncExternalRecoverySettled _ binding enabled tables now = _
      ∨ _ < (cloudSyncExternalRecoverySettled _ binding enabled tables
        now).revision
    unfold cloudSyncExternalRecoverySettled
    dsimp only
    split
    · exact .inl rfl
    split
    · exact .inl rfl
    split
    · exact .inr (Int.lt_succ _)
    · exact .inr (Int.lt_succ _)
  | restarted binding enabled bootstrapped =>
    refine .inr ?_
    show _ < (recoverCloudSyncDurableState (some w.state) binding enabled
      bootstrapped now).revision
    have hbelongs : belongs w.state binding := h
    unfold recoverCloudSyncDurableState
    dsimp only
    rw [if_neg (not_not.mpr hbelongs)]
    show w.state.revision < safeRevision w.state.revision + 1
    unfold safeRevision
    split
    · omega
    · omega
  | _ => exact .inr (Int.lt_succ _)

-- =============================== invariant

/-- The phases of an attempt on its way. -/
def attemptPhase (phase : CloudSyncLifecyclePhase) : Prop :=
  phase = .uploadInProgress ∨ phase = .downloadInProgress
    ∨ phase = .bootstrapInProgress ∨ phase = .quiescing

/-- The phase each mode goes with. -/
def Guarded (w : Watch) : Prop :=
  match w.mode with
  | .held => w.state.phase = .restoreQuarantine
  | .attempting => attemptPhase w.state.phase
  | .released => True

variable {s : CloudSyncDurableState}

theorem settledPhase_quarantine (h : s.phase = .restoreQuarantine) :
    settledPhase s = .restoreQuarantine := by
  unfold settledPhase
  rw [if_pos (.inr (.inr (.inr h))), h]

/-- New intents do not move a state that is not settled. -/
theorem intents_phase (h : s.phase = .restoreQuarantine ∨ attemptPhase s.phase)
    (dirty conflicts : List Text) (retries : List CloudSyncRetryRecord)
    (now : Int) :
    (cloudSyncDurableStateWithIntents s dirty conflicts retries now).phase
      = s.phase := by
  have hother : s.phase ≠ .ready ∧ s.phase ≠ .retryWait
      ∧ s.phase ≠ .conflictBlocked := by
    unfold attemptPhase at h
    rcases h with h | h | h | h | h
    all_goals
      rw [h]
      decide
  show intentUpdatePhase _ = _
  unfold intentUpdatePhase
  exact if_pos hother

theorem rebound_quarantine (h : s.phase = .restoreQuarantine)
    {binding : CloudAccountBinding} {enabled : Bool}
    (henabled : Enabled binding enabled) (bootstrapped : Bool) :
    rebound s binding enabled bootstrapped = .restoreQuarantine := by
  unfold rebound
  rw [if_pos ⟨henabled.1, henabled.2⟩, settledPhase_quarantine h]

theorem started_phase (s : CloudSyncDurableState) (source : Text)
    (direction : CloudSyncDirection) (now : Int) :
    attemptPhase
      (cloudSyncOperationStarted s source direction now).phase := by
  show attemptPhase (if direction = .nativeFirst then .uploadInProgress
    else if s.bootstrapCompleted then .downloadInProgress
    else .bootstrapInProgress)
  split
  · exact .inl rfl
  split
  · exact .inr (.inl rfl)
  · exact .inr (.inr (.inl rfl))

theorem finished_quarantine (h : s.phase = .restoreQuarantine)
    {result : OperationEnd} (hok : result.ok = true)
    (hrollback : result.rollbackFailed = false) (now : Int) :
    (cloudSyncOperationFinished s result now).phase
      = .restoreQuarantine := by
  unfold cloudSyncOperationFinished
  dsimp only
  simp only [hok, hrollback, Bool.not_true, Bool.false_eq_true, false_and,
    if_false]
  exact settledPhase_quarantine h

theorem externalSettled_other (h : s.phase ≠ .recoveryRequired)
    (binding : CloudAccountBinding) (enabled : Bool) (tables : List Text)
    (now : Int) :
    cloudSyncExternalRecoverySettled s binding enabled tables now = s := by
  unfold cloudSyncExternalRecoverySettled
  dsimp only
  rw [if_pos (.inl h)]

theorem recovered_quarantine (h : s.phase = .restoreQuarantine)
    {binding : CloudAccountBinding} (hbelongs : belongs s binding)
    (enabled bootstrapped : Bool) (now : Int) :
    (recoverCloudSyncDurableState (some s) binding enabled bootstrapped
      now).phase = .restoreQuarantine := by
  unfold recoverCloudSyncDurableState
  dsimp only
  rw [if_neg (not_not.mpr hbelongs)]
  show recoveredPhase _ _ _ _ _ _ = _
  unfold recoveredPhase
  dsimp only
  rw [if_pos h, h]

/-- An attempt ends in quarantine, or in a stronger state. -/
theorem attemptFinished_phase (s : CloudSyncDurableState)
    (result : OperationEnd) (now : Int) :
    (cloudSyncRestoreResolutionAttemptFinished s result now).phase
        = .blocked
      ∨ (cloudSyncRestoreResolutionAttemptFinished s result now).phase
        = .recoveryRequired
      ∨ (cloudSyncRestoreResolutionAttemptFinished s result now).phase
        = .restoreQuarantine := by
  unfold cloudSyncRestoreResolutionAttemptFinished
  dsimp only
  split
  · rename_i h
    exact h.imp_right .inl
  · exact .inr (.inr rfl)

theorem attemptPhase_ne_recovery {phase : CloudSyncLifecyclePhase}
    (h : attemptPhase phase) : phase ≠ .recoveryRequired := by
  unfold attemptPhase at h
  rcases h with h | h | h | h
  all_goals
    rw [h]
    decide

theorem guarded_attemptFinished (w : Watch) (result : OperationEnd)
    (now : Int) : Guarded (watch w ⟨.attemptFinished result, now⟩) := by
  have hphase := attemptFinished_phase w.state result now
  have hmode : (watch w ⟨.attemptFinished result, now⟩).mode
      = if w.mode = .released
          ∨ (watch w ⟨.attemptFinished result, now⟩).state.phase = .blocked
          ∨ (watch w ⟨.attemptFinished result, now⟩).state.phase
            = .recoveryRequired then .released
        else .held := rfl
  change (watch w ⟨.attemptFinished result, now⟩).state.phase = _
    ∨ (watch w ⟨.attemptFinished result, now⟩).state.phase = _
    ∨ (watch w ⟨.attemptFinished result, now⟩).state.phase = _ at hphase
  generalize watch w ⟨.attemptFinished result, now⟩ = next at hphase hmode ⊢
  unfold Guarded
  rw [hmode]
  split_ifs with hend
  · trivial
  · rw [not_or, not_or] at hend
    exact (hphase.resolve_left hend.2.1).resolve_left hend.2.2

/-- What a transition that keeps the quarantine preserves. -/
theorem Guarded.step {w : Watch} {t : Timed} (hw : Guarded w)
    (hkeep : Keeps w t) : Guarded (watch w t) := by
  obtain ⟨s, mode⟩ := w
  obtain ⟨transition, now⟩ := t
  cases mode with
  | released =>
    cases transition with
    | quarantined => exact rfl
    | attemptFinished result => exact guarded_attemptFinished _ result now
    | _ => trivial
  | held =>
    have hphase : s.phase = .restoreQuarantine := hw
    cases transition with
    | intents dirty conflicts retries =>
      exact (intents_phase (.inl hphase) dirty conflicts retries
        now).trans hphase
    | started source direction => exact started_phase s source direction now
    | finished result => exact finished_quarantine hphase hkeep.1 hkeep.2 now
    | attemptFinished result => exact guarded_attemptFinished _ result now
    | externalRequired tables => exact hkeep.elim
    | externalSettled binding enabled tables =>
      show (cloudSyncExternalRecoverySettled s binding enabled tables
        now).phase = _
      rw [externalSettled_other (by rw [hphase]; decide), hphase]
    | indeterminateSettled binding enabled =>
      exact rebound_quarantine hphase hkeep _
    | bootstrapped => exact settledPhase_quarantine hphase
    | quarantined => exact rfl
    | released before => trivial
    | completed => trivial
    | quiescing => exact hkeep.elim
    | quiesced binding enabled => exact rebound_quarantine hphase hkeep _
    | restarted binding enabled bootstrapped =>
      exact recovered_quarantine hphase hkeep enabled bootstrapped now
  | attempting =>
    have hphase : attemptPhase s.phase := hw
    cases transition with
    | intents dirty conflicts retries =>
      show attemptPhase (cloudSyncDurableStateWithIntents s dirty
        conflicts retries now).phase
      rw [intents_phase (.inr hphase)]
      exact hphase
    | started source direction => exact started_phase s source direction now
    | finished result => exact hkeep.elim
    | attemptFinished result => exact guarded_attemptFinished _ result now
    | externalRequired tables => exact hkeep.elim
    | externalSettled binding enabled tables =>
      show attemptPhase (cloudSyncExternalRecoverySettled s binding
        enabled tables now).phase
      rw [externalSettled_other (attemptPhase_ne_recovery hphase)]
      exact hphase
    | indeterminateSettled binding enabled => exact hkeep.elim
    | bootstrapped => exact hkeep.elim
    | quarantined => exact rfl
    | released before => trivial
    | completed => trivial
    | quiescing => exact .inr (.inr (.inr rfl))
    | quiesced binding enabled => exact hkeep.elim
    | restarted binding enabled bootstrapped => trivial

theorem Guarded.closed {w : Watch} (hw : Guarded w)
    (hmode : w.mode ≠ .released) :
    cloudSyncAutomaticUploadAllowed w.state = false
      ∧ cloudSyncDownloadAllowed w.state = false := by
  have hphase : w.state.phase = .restoreQuarantine
      ∨ attemptPhase w.state.phase := by
    obtain ⟨s, mode⟩ := w
    cases mode with
    | held => exact .inl hw
    | attempting => exact .inr hw
    | released => exact absurd rfl hmode
  unfold attemptPhase at hphase
  unfold cloudSyncAutomaticUploadAllowed cloudSyncDownloadAllowed
  rcases hphase with h | h | h | h | h
  all_goals simp [h]

-- ==================================== runs

def ownerBinding : CloudAccountBinding where
  state := .bound
  ownerScopeId := codes "owner"
  storeIdentity := codes "store"
  generation := 1
  platformIdentityFingerprint := List.replicate 64 97

/-- A store whose backup was just restored. -/
def restoredState : CloudSyncDurableState where
  ownerScopeId := codes "owner"
  storeIdentity := codes "store"
  generation := 1
  phase := .restoreQuarantine
  bootstrapCompleted := true
  updatedAt := 1

end RemoteDesk.Cloud
